/-
Smos.RootServer.DevicePages — the pages of a device range.

`alloc_device_mem` makes the frames of a range one by one, each from the
untyped that boot registered for its page; a page that cannot be had is an
`expect`. `PageCap` says where a frame lies: the kernel knows the untyped
it was made from, and boot the page of that untyped. A page stays where it
is whatever is made later (`Later`).

`Backs` is the condition under which a range can be made, read off the state
before: its pages are there and unused, the slot allocator has as many empty
slots, and the cache has room.
-/
import Smos.RootServer.DeviceMemory

namespace Smos.RootServer

open Smos.Base

/-! ## Where a page lies -/

/-- The kernel lists each page of memory once, with an untyped of its own. -/
structure Listed (ranges : List UntypedRange) : Prop where
  aligned : ∀ page ∈ UTTable.pages ranges, 2 ^ pageBits4K ∣ page.paddr
  paddrs : ((UTTable.pages ranges).map UntypedPage.paddr).Nodup
  caps : ((UTTable.pages ranges).map UntypedPage.cap).Nodup

theorem Listed.page_eq {ranges : List UntypedRange} (h : Listed ranges) {page page' : UntypedPage}
    (hp : page ∈ UTTable.pages ranges) (hp' : page' ∈ UTTable.pages ranges)
    (hcap : page.cap = page'.cap) : page = page' :=
  List.inj_on_of_nodup_map h.caps hp hp' hcap

namespace Kernel

/-- The slot holds a capability to the page at that address. -/
def PageCap (k : Kernel) (ranges : List UntypedRange) (c : Slot) (paddr : Nat) : Prop :=
  ∃ obj original access mapping page, k.caps c = some (.frame obj original access mapping) ∧
    obj < k.nextObj ∧ k.madeFrom obj = some page.cap ∧ page ∈ UTTable.pages ranges ∧
    page.paddr = paddr

/-- Boot registered the page, and nothing was made from its untyped. -/
def Available (k : Kernel) (ranges : List UntypedRange) (paddr : Nat) : Prop :=
  ∃ page ∈ UTTable.pages ranges, page.paddr = paddr ∧ page.cap ∉ k.usedDevice

/-- Capabilities and pages are only added. -/
structure Later (k k' : Kernel) : Prop where
  caps : ∀ c cap, k.caps c = some cap → k'.caps c = some cap
  nextObj : k.nextObj ≤ k'.nextObj
  madeFrom : ∀ obj < k.nextObj, k'.madeFrom obj = k.madeFrom obj

theorem Later.refl (k : Kernel) : Later k k := ⟨fun _ _ h => h, Nat.le_refl _, fun _ _ => rfl⟩

theorem Later.trans {k k₁ k₂ : Kernel} (h : Later k k₁) (h' : Later k₁ k₂) : Later k k₂ where
  caps c cap hc := h'.caps c cap (h.caps c cap hc)
  nextObj := h.nextObj.trans h'.nextObj
  madeFrom obj hlt := (h'.madeFrom obj (hlt.trans_le h.nextObj)).trans (h.madeFrom obj hlt)

theorem PageCap.later {k k' : Kernel} {ranges : List UntypedRange} {c : Slot} {paddr : Nat}
    (h : k.PageCap ranges c paddr) (hk : Later k k') : k'.PageCap ranges c paddr := by
  obtain ⟨obj, original, access, mapping, page, hcap, hlt, hmade, hpage, haddr⟩ := h
  exact ⟨obj, original, access, mapping, page, hk.caps c _ hcap, hlt.trans_le hk.nextObj,
    (hk.madeFrom obj hlt).trans hmade, hpage, haddr⟩

/-- A device page is made from `ut`, in the slot `c`. -/
structure Makes (k : Kernel) (ut c : Slot) (k' : Kernel) : Prop where
  empty : k.caps c = none
  unused : ut ∉ k.usedDevice
  cap : k'.caps c = some (.frame k.nextObj true ⟨true, true⟩ none)
  others : ∀ c', c' ≠ c → k'.caps c' = k.caps c'
  nextObj : k'.nextObj = k.nextObj + 1
  madeFrom : k'.madeFrom = Function.update k.madeFrom k.nextObj (some ut)
  used : k'.usedDevice = ut :: k.usedDevice

theorem deviceRetype_makes {k k' : Kernel} {ut c : Slot} (h : k.deviceRetype ut c = .ok k') :
    Makes k ut c k' := by
  unfold deviceRetype at h
  split at h
  · cases h
  · next hempty =>
    split at h
    · cases h
    · next hunused =>
      cases h
      exact ⟨by simpa using hempty, hunused, Function.update_self .., fun c' hc =>
        Function.update_of_ne hc .., rfl, rfl, rfl⟩

theorem deviceRetype_error {k : Kernel} {ut c : Slot} {e : Sel4Error}
    (h : k.deviceRetype ut c = .error e) : ¬ (k.caps c = none ∧ ut ∉ k.usedDevice) := by
  intro ⟨hempty, hunused⟩
  rw [deviceRetype, hempty, if_neg (by simp), if_neg hunused] at h
  cases h

namespace Makes

variable {k k' : Kernel} {ut c : Slot} {ranges : List UntypedRange}

theorem later (h : Makes k ut c k') : Later k k' where
  caps c' cap hc := by
    have hne : c' ≠ c := by
      intro heq
      rw [heq, h.empty] at hc
      cases hc
    rw [h.others c' hne, hc]
  nextObj := by
    rw [h.nextObj]
    exact Nat.le_succ _
  madeFrom obj hlt := by
    rw [h.madeFrom]
    exact Function.update_of_ne (Nat.ne_of_lt hlt) ..

theorem pageCap (h : Makes k ut c k') {page : UntypedPage} (hpage : page ∈ UTTable.pages ranges)
    (hut : page.cap = ut) : k'.PageCap ranges c page.paddr := by
  refine ⟨k.nextObj, true, ⟨true, true⟩, none, page, h.cap, ?_, ?_, hpage, rfl⟩
  · rw [h.nextObj]
    exact Nat.lt_succ_self _
  · rw [h.madeFrom, Function.update_self, hut]

/-- Another page is as available as before. -/
theorem available_iff (h : Makes k ut c k') (hl : Listed ranges) {page : UntypedPage}
    (hpage : page ∈ UTTable.pages ranges) (hut : page.cap = ut) {paddr : Nat}
    (hne : paddr ≠ page.paddr) : k'.Available ranges paddr ↔ k.Available ranges paddr := by
  constructor
  · intro ⟨page', hp', haddr, hunused⟩
    rw [h.used] at hunused
    exact ⟨page', hp', haddr, fun hmem => hunused (List.mem_cons_of_mem _ hmem)⟩
  · intro ⟨page', hp', haddr, hunused⟩
    refine ⟨page', hp', haddr, fun hmem => ?_⟩
    rw [h.used, ← hut] at hmem
    obtain heq | hmem := List.mem_cons.mp hmem
    · rw [hl.page_eq hp' hpage heq] at haddr
      exact hne haddr.symm
    · exact hunused hmem

end Makes

end Kernel

/-! ## Slots for the frames -/

/-- The slot allocator has `n` slots to give, all of them empty. -/
def Supplies (k : Kernel) : Nat → CSpace → Prop
  | 0, _ => True
  | n + 1, cs => ∃ c cs', CSpace.allocSlot cs = .ok c cs' ∧ k.caps c = none ∧ Supplies k n cs'

/-- Only the slots that are not allocated matter. -/
theorem Supplies.congr {k k' : Kernel} : ∀ {n : Nat} {cs : CSpace},
    (∀ c, ¬ cs.Allocated c → k'.caps c = k.caps c) → Supplies k n cs → Supplies k' n cs
  | 0, _, _, _ => trivial
  | n + 1, cs, hsame, h => by
      obtain ⟨c, cs', hrun, hempty, hrest⟩ := h
      obtain ⟨hfree, hall⟩ := Prog.wp_ok (CSpace.allocSlot_spec cs) hrun
      refine ⟨c, cs', hrun, (hsame c hfree).trans hempty, hrest.congr fun c' hc' => ?_⟩
      exact hsame c' fun ha => hc' ((hall c').mpr (.inl ha))

/-- What a frame takes up was not to be given out later. -/
theorem Kernel.Makes.supplies_iff {k k' : Kernel} {ut c : Slot} (h : k.Makes ut c k') {n : Nat}
    {cs : CSpace} (hc : cs.Allocated c) : Supplies k' n cs ↔ Supplies k n cs := by
  have hsame : ∀ c', ¬ cs.Allocated c' → k'.caps c' = k.caps c' := by
    intro c' hc'
    refine h.others c' fun heq => hc' ?_
    rwa [heq]
  exact ⟨.congr fun c' hc' => (hsame c' hc').symm, .congr hsame⟩

/-! ## The entries that boot made -/

namespace UTTable

/-- A valid entry has the capability of the page that was registered for it. -/
def Capped (t : UTTable) (ps : List UntypedPage) : Prop :=
  ∀ index entry, t.untypeds[index]? = some entry → entry.valid = true →
    ∃ page ∈ ps, t.firstPaddr ≤ page.paddr ∧ t.pageOf page.paddr = index ∧ page.cap = entry.cap

theorem Capped.addPage {t : UTTable} {ps : List UntypedPage} (h : t.Capped ps)
    (page : UntypedPage) : (addPage page).wp (fun _ t' => t'.Capped (ps ++ [page]))
      (fun _ _ => False) (fun _ => True) t := by
  simp only [UTTable.addPage, paddrToUt, Prog.wp_bind, Prog.wp_gets, wp_subU, Prog.wp_pure,
    Prog.wp_unwrap, Prog.wp_modify]
  refine ⟨fun hle => ⟨fun _ hentry => ?_, fun _ => trivial⟩, fun _ => trivial⟩
  have hlt : t.pageOf page.paddr < t.untypeds.length := (List.getElem?_eq_some_iff.mp hentry).1
  intro index entry hentry' hvalid
  change (t.untypeds.set (t.pageOf page.paddr) ⟨page.cap, true⟩)[index]? = some entry at hentry'
  rw [List.getElem?_set] at hentry'
  by_cases heq : t.pageOf page.paddr = index
  · rw [if_pos heq, if_pos hlt] at hentry'
    cases hentry'
    exact ⟨page, by simp, hle, heq, rfl⟩
  · rw [if_neg heq] at hentry'
    obtain ⟨page', hp', hrest⟩ := h index entry hentry' hvalid
    exact ⟨page', List.mem_append_left _ hp', hrest⟩

theorem Boots.capped {ranges : List UntypedRange} {t : UTTable} (h : Boots ranges t) :
    t.Capped (pages ranges) := by
  refine h.induct (fun firstPaddr entries nextFreeVaddr index entry hentry hvalid => ?_)
    fun _ _ page h => h.addPage page
  rw [List.eq_of_mem_replicate (List.mem_of_getElem? hentry)] at hvalid
  cases hvalid

/-- The table has the entries that boot made. -/
structure FromBoot (ranges : List UntypedRange) (t : UTTable) : Prop where
  entries : ∃ t₀, Boots ranges t₀ ∧ t.untypeds = t₀.untypeds ∧ t.firstPaddr = t₀.firstPaddr
  length : t.untypeds.length ≤ physicalPages

/-- The table that boot leaves, for the memory that it found. -/
theorem fromBoot_of_boots {memory : List UntypedDesc} {start limit nextFreeVaddr : Nat}
    {ranges : List UntypedRange} {t : UTTable}
    (hbounds : findMemoryBounds memory = some (start, limit))
    (hboot : Prog.forEach addUntypedRange ranges
      (.new start ((limit - start) / pageSize4K) nextFreeVaddr) = .ok () t) :
    FromBoot ranges t where
  entries := ⟨t, ⟨_, _, _, hboot⟩, rfl, rfl⟩
  length := by
    rw [length_of_boot hboot]
    exact findMemoryBounds_le hbounds

namespace FromBoot

variable {ranges : List UntypedRange} {t : UTTable}

theorem describes (h : FromBoot ranges t) : t.Describes (pages ranges) := by
  obtain ⟨t₀, hboots, hu, hp⟩ := h.entries
  exact hboots.describes.congr hu hp

theorem capped (h : FromBoot ranges t) : t.Capped (pages ranges) := by
  obtain ⟨t₀, hboots, hu, hp⟩ := h.entries
  intro index entry hentry hvalid
  rw [hu] at hentry
  have hcap := hboots.capped index entry hentry hvalid
  simp only [pageOf, hp]
  exact hcap

/-- A registered page has an entry, which is valid. -/
theorem mem_table (h : FromBoot ranges t) {page : UntypedPage} (hpage : page ∈ pages ranges) :
    t.firstPaddr ≤ page.paddr ∧ t.pageOf page.paddr < t.untypeds.length := by
  have habove := h.describes.above page hpage
  exact ⟨habove, h.describes.inTable page.device _ ⟨page, hpage, rfl, habove, rfl⟩⟩

/-- So there cannot be more pages in a row than the table can have. -/
theorem length_le (h : FromBoot ranges t) {paddr n : Nat}
    (hpages : ∀ i < n, ∃ page ∈ pages ranges, page.paddr = paddr + i * pageSize4K) :
    n ≤ physicalPages := by
  cases n with
  | zero => exact Nat.zero_le _
  | succ n =>
    obtain ⟨first, hfirst, hfirst'⟩ := hpages 0 (Nat.succ_pos n)
    obtain ⟨last, hlast, hlast'⟩ := hpages n (Nat.lt_succ_self n)
    have habove := (h.mem_table hfirst).1
    have hlt := (h.mem_table hlast).2
    have hle := h.length
    rw [hfirst'] at habove
    rw [hlast'] at hlt
    unfold pageOf at hlt
    unfold pageSize4K at *
    omega

end FromBoot

end UTTable

/-! ## Making the frames -/

section Pages

open UTTable

variable {ε : Type} {ranges : List UntypedRange} {r : Res} {paddr size : Nat}

/-- `alloc_4k_device` answers the untyped of the page, if boot registered one. -/
theorem alloc4kDevice_page (hl : Listed ranges) (hb : FromBoot ranges r.ut)
    (ha : 2 ^ pageBits4K ∣ paddr) : (RootServer.alloc4kDevice paddr).wp
      (fun entry r' => r' = r ∧ ∃ page ∈ pages ranges, page.paddr = paddr ∧ page.cap = entry.cap)
      (fun _ _ => ∀ page ∈ pages ranges, page.paddr ≠ paddr)
      (fun _ => ∀ page ∈ pages ranges, page.paddr ≠ paddr) r := by
  refine Prog.wp_mono (alloc4kDevice_spec paddr r) ?_ ?_ ?_
  · intro entry r' ⟨hr', hle, hentry, hvalid⟩
    obtain ⟨page, hpage, habove, hindex, hcap⟩ := hb.capped _ entry hentry hvalid
    exact ⟨hr', page, hpage, pageOf_inj (hl.aligned page hpage) ha habove hle hindex, hcap⟩
  · intro _ r' ⟨_, hle, entry, hentry, hinvalid⟩ page hpage heq
    have hreg : ∃ device, r.ut.Registered (pages ranges) device (r.ut.pageOf paddr) :=
      ⟨page.device, page, hpage, rfl, heq ▸ hle, heq ▸ rfl⟩
    rw [(hb.describes.valid _ entry hentry).mpr hreg] at hinvalid
    cases hinvalid
  · intro _ hpast page hpage heq
    obtain ⟨habove, hlt⟩ := hb.mem_table hpage
    rw [heq] at habove hlt
    exact absurd (hpast habove) (Nat.not_le.mpr hlt)

/-- The frames of some pages. -/
structure PagesMade (ranges : List UntypedRange) (paddrs : List Nat) (r : Res)
    (frames : List (Slot × Nat)) (r' : Res) : Prop where
  caps : List.Forall₂ (fun f paddr => r'.kernel.PageCap ranges f.1 paddr) frames paddrs
  later : r.kernel.Later r'.kernel
  table : r'.ut = r.ut
  cache : r'.deviceAllocations = r.deviceAllocations
  available : ∀ paddr ∈ paddrs, r.kernel.Available ranges paddr
  slots : Supplies r.kernel paddrs.length r.cspace

/-- One page is made where its untyped and an empty slot can be had. -/
theorem allocDevicePage_makes (hl : Listed ranges) (hb : FromBoot ranges r.ut)
    (ha : 2 ^ pageBits4K ∣ paddr) : (allocDevicePage paddr : RProg ε Slot).wp
      (fun c r' => ∃ page ∈ pages ranges, page.paddr = paddr ∧ ∃ cs k,
        CSpace.allocSlot r.cspace = .ok c cs ∧ r.kernel.Makes page.cap c k ∧
        r' = { r with cspace := cs, kernel := k })
      (fun _ _ => False)
      (fun _ => ¬ (r.kernel.Available ranges paddr ∧ Supplies r.kernel 1 r.cspace)) r := by
  simp only [allocDevicePage, Prog.wp_bind, Prog.wp_expect, Prog.wp_pure]
  have hmissing : (∀ page ∈ pages ranges, page.paddr ≠ paddr) →
      ¬ (r.kernel.Available ranges paddr ∧ Supplies r.kernel 1 r.cspace) := by
    intro hnone hpost
    rcases hpost with ⟨⟨page, hpage, heq, -⟩, -⟩
    exact hnone page hpage heq
  refine Prog.wp_mono (alloc4kDevice_page hl hb ha) ?_ (fun _ _ => hmissing) fun _ => hmissing
  intro entry r₁ hpost
  rcases hpost with ⟨hr₁, page, hpage, haddr, hcap⟩
  subst hr₁
  simp only [allocSlot, Prog.wp_zoom]
  unfold Prog.wp
  cases hslot : CSpace.allocSlot r₁.cspace with
  | err e cs =>
    intro hboth
    rcases hboth with ⟨-, c, cs', hrun, -⟩
    rw [hslot] at hrun
    cases hrun
  | panic p =>
    intro hboth
    rcases hboth with ⟨-, c, cs', hrun, -⟩
    rw [hslot] at hrun
    cases hrun
  | ok c cs =>
    show Prog.wp _ _ _ _ _
    simp only [kcall, Prog.wp_zoom, Prog.wp_ofExcept]
    refine ⟨fun k hk => ?_, fun e he hall => ?_⟩
    · refine ⟨page, hpage, haddr, cs, k, rfl, ?_, rfl⟩
      rw [hcap]
      exact Kernel.deviceRetype_makes hk
    · obtain ⟨⟨page', hp', haddr', hunused⟩, c', cs', hrun, hempty, -⟩ := hall
      rw [hslot] at hrun
      cases hrun
      have heq : page' = page :=
        List.inj_on_of_nodup_map hl.paddrs hp' hpage (haddr'.trans haddr.symm)
      rw [heq, hcap] at hunused
      exact Kernel.deviceRetype_error he ⟨hempty, hunused⟩

/-- The frames of a range are made one after the other; a page that is made stays made. -/
theorem allocDevicePages_makes (hl : Listed ranges) : ∀ (paddrs : List Nat) (r : Res),
    FromBoot ranges r.ut → (∀ paddr ∈ paddrs, 2 ^ pageBits4K ∣ paddr) → paddrs.Nodup →
      (allocDevicePages paddrs : RProg ε (List (Slot × Nat))).wp
        (fun frames r' => PagesMade ranges paddrs r frames r') (fun _ _ => False)
        (fun _ => ¬ ((∀ paddr ∈ paddrs, r.kernel.Available ranges paddr) ∧
          Supplies r.kernel paddrs.length r.cspace)) r
  | [], r, _, _, _ =>
      ⟨.nil, .refl _, rfl, rfl, fun _ h => absurd h List.not_mem_nil, trivial⟩
  | paddr :: paddrs, r, hb, ha, hn => by
      obtain ⟨hnot, hn'⟩ := List.nodup_cons.mp hn
      simp only [allocDevicePages, Prog.wp_bind, Prog.wp_pure]
      refine Prog.wp_mono (allocDevicePage_makes hl hb (ha paddr List.mem_cons_self)) ?_
        (fun _ _ => False.elim) ?_
      swap
      · intro _ hfail hpost
        rcases hpost with ⟨hall, c, cs, hrun, hempty, -⟩
        exact hfail ⟨hall paddr List.mem_cons_self, c, cs, hrun, hempty, trivial⟩
      intro c r₁ hpost
      rcases hpost with ⟨page, hpage, haddr, cs, k, hrun, hmakes, hr₁⟩
      subst hr₁
      have hothers : ∀ paddr' ∈ paddrs,
          (k.Available ranges paddr' ↔ r.kernel.Available ranges paddr') := by
        intro paddr' hmem
        refine hmakes.available_iff hl hpage rfl fun heq => hnot ?_
        rw [← haddr, ← heq]
        exact hmem
      have hc : cs.Allocated c :=
        ((Prog.wp_ok (CSpace.allocSlot_spec r.cspace) hrun).2 c).mpr (.inr rfl)
      have hslots : Supplies k paddrs.length cs ↔ Supplies r.kernel paddrs.length cs :=
        hmakes.supplies_iff hc
      have hrest := allocDevicePages_makes hl paddrs
        { r with cspace := cs, kernel := k } hb
        (fun paddr' hmem => ha paddr' (List.mem_cons_of_mem _ hmem)) hn'
      refine Prog.wp_mono hrest ?_ (fun _ _ => False.elim) ?_
      · intro frames r₂ h₂
        refine ⟨.cons ?_ h₂.caps, hmakes.later.trans h₂.later, h₂.table, h₂.cache, ?_, ?_⟩
        · rw [← haddr]
          exact (hmakes.pageCap hpage rfl).later h₂.later
        · intro paddr' hmem
          obtain rfl | hmem := List.mem_cons.mp hmem
          · exact ⟨page, hpage, haddr, hmakes.unused⟩
          · exact (hothers paddr' hmem).mp (h₂.available paddr' hmem)
        · exact ⟨c, cs, hrun, hmakes.empty, hslots.mp h₂.slots⟩
      · intro _ hfail hpost
        rcases hpost with ⟨hall, c', cs', hrun', -, hsupply⟩
        rw [hrun] at hrun'
        cases hrun'
        refine hfail ⟨fun paddr' hmem => (hothers paddr' hmem).mpr ?_, hslots.mpr hsupply⟩
        exact hall paddr' (List.mem_cons_of_mem _ hmem)

/-! ## Device memory -/

/-- A new range can be made. -/
structure Res.Backs (r : Res) (ranges : List UntypedRange) (paddr size : Nat) : Prop where
  address : paddr + size < usizeBound
  pages : ∀ i < size / pageSize4K, r.kernel.Available ranges (paddr + i * pageSize4K)
  slots : Supplies r.kernel (size / pageSize4K) r.cspace
  room : r.deviceAllocations.length < maxDeviceAllocations

/-- What `alloc_device_mem` finds in its cache. -/
def Res.cached (r : Res) (paddr size : Nat) : Option DeviceMemAllocation :=
  r.deviceAllocations.find? fun a => paddr == a.paddr && size ≤ a.size

theorem pageSteps_eq (h : size % pageSize4K = 0) :
    pageSteps paddr size =
      (List.range (size / pageSize4K)).map fun i => paddr + i * pageSize4K := by
  have hsame : (size + (pageSize4K - 1)) / pageSize4K = size / pageSize4K := by
    unfold pageSize4K at *
    omega
  rw [pageSteps, hsame]

theorem pageSteps_nodup : (pageSteps paddr size).Nodup := by
  refine List.Nodup.map_on (fun i _ j _ heq => ?_) List.nodup_range
  unfold pageSize4K at heq
  omega

/-- A range that is known is answered as it was made. -/
theorem allocDeviceMem_cached {a : DeviceMemAllocation} (h : r.cached paddr size = some a) :
    (allocDeviceMem paddr size : RProg ε (List (Slot × Nat))) r = .ok a.frames r := by
  rw [allocDeviceMem, Prog.gets_bind]
  unfold Res.cached at h
  rw [h]
  rfl

/-- Another one is made, or is a panic. -/
theorem allocDeviceMem_made (hl : Listed ranges) (hb : FromBoot ranges r.ut)
    (ha : 2 ^ pageBits4K ∣ paddr) (hs : size % pageSize4K = 0) (h : r.cached paddr size = none) :
    (allocDeviceMem paddr size : RProg ε (List (Slot × Nat))).wp
      (fun frames r' => r.Backs ranges paddr size ∧ ∃ r₁,
        PagesMade ranges (pageSteps paddr size) r frames r₁ ∧
        r' = { r₁ with deviceAllocations := r.deviceAllocations ++ [⟨paddr, size, frames⟩] })
      (fun _ _ => False) (fun _ => ¬ r.Backs ranges paddr size) r := by
  unfold Res.cached at h
  simp only [allocDeviceMem, Prog.wp_bind, Prog.wp_gets, h, wp_addU, Prog.wp_ite, Prog.wp_modify,
    Prog.wp_pure, Prog.wp_panic]
  refine ⟨fun haddr => ?_, fun hover hbacks => hover hbacks.address⟩
  have haligned : ∀ x ∈ pageSteps paddr size, 2 ^ pageBits4K ∣ x := by
    intro x hx
    obtain ⟨i, -, rfl⟩ := List.mem_map.mp hx
    exact Nat.dvd_add ha ⟨i, Nat.mul_comm _ _⟩
  have hlength : (pageSteps paddr size).length = size / pageSize4K := by
    rw [pageSteps_eq hs, List.length_map, List.length_range]
  have hpages : (∀ x ∈ pageSteps paddr size, r.kernel.Available ranges x) ↔
      ∀ i < size / pageSize4K, r.kernel.Available ranges (paddr + i * pageSize4K) := by
    rw [pageSteps_eq hs, List.forall_mem_map]
    simp only [List.mem_range]
  refine Prog.wp_mono (allocDevicePages_makes hl _ r hb haligned pageSteps_nodup) ?_
    (fun _ _ => False.elim) ?_
  · intro frames r₁ h₁
    rw [h₁.cache]
    refine ⟨fun hroom => ⟨⟨haddr, hpages.mp h₁.available, hlength ▸ h₁.slots, hroom⟩, r₁, h₁, rfl⟩,
      fun hfull hbacks => hfull hbacks.room⟩
  · intro _ hfail hbacks
    refine hfail ⟨hpages.mpr hbacks.pages, ?_⟩
    rw [hlength]
    exact hbacks.slots

end Pages

end Smos.RootServer
