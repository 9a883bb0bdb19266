/-
Smos.RootServer.BootTable — the 4K untypeds of bootstrap.

`addUntyped` visits every untyped once. `Filling` is its loop invariant: each
range that was recorded comes from one untyped (`Recorded`), with the
address that `bootinfo_avail_bytes` gives and objects that begin at the
kernel's mark. Nothing says here that the two agree.

The node blocks take 4K untypeds off the free list and leave the entries of
the table alone.
-/
import Smos.RootServer.BootStages

namespace Smos.RootServer

open Smos.Base

namespace UTTable

theorem addUntypedRange_spec {t : UTTable} {range : UntypedRange}
    (h : ∀ page ∈ range.pages,
      t.firstPaddr ≤ page.paddr ∧ t.pageOf page.paddr < t.untypeds.length) :
    (addUntypedRange range).wp
      (fun _ t' => t'.firstPaddr = t.firstPaddr ∧ t'.untypeds.length = t.untypeds.length ∧
        (t'.freeUntypeds pageBits4K).length = (t.freeUntypeds pageBits4K).length +
          if range.device then 0 else range.nPages)
      (fun _ _ => False) (fun _ => False) t := by
  -- the pages that are left are still to go on the free list
  refine Prog.wp_mono (Prog.wp_forEach_list
    (I := fun rest t' => t'.firstPaddr = t.firstPaddr ∧
      t'.untypeds.length = t.untypeds.length ∧
      (t'.freeUntypeds pageBits4K).length + (if range.device then 0 else rest.length) =
        (t.freeUntypeds pageBits4K).length + if range.device then 0 else range.nPages)
    ⟨rfl, rfl, by simp [UntypedRange.pages]⟩ ?_) ?_ (fun _ _ h => h) (fun _ h => h)
  rotate_left
  · intro _ t' ⟨hfirst, hlen, hfree⟩
    refine ⟨hfirst, hlen, ?_⟩
    simpa using hfree
  · intro page rest t' hsuf ⟨hfirst, hlen, hfree⟩
    have hpage : page ∈ range.pages := hsuf.subset List.mem_cons_self
    have hdev : page.device = range.device := by
      obtain ⟨k, -, rfl⟩ := List.mem_map.mp hpage
      rfl
    obtain ⟨hle, hlt⟩ := h page hpage
    have hlt' : (page.paddr - t'.firstPaddr) / pageSize4K < t'.untypeds.length := by
      rw [hfirst, hlen]
      exact hlt
    simp only [addPage, paddrToUt, Prog.wp_bind, Prog.wp_gets, wp_subU, Prog.wp_pure,
      Prog.wp_unwrap, Prog.wp_modify]
    refine ⟨fun _ => ⟨fun entry _ => ⟨hfirst, ?_, ?_⟩, fun hnone => ?_⟩, fun hno => ?_⟩
    · show (t'.untypeds.set _ _).length = _
      rw [List.length_set, hlen]
    · rw [← hfree, setPage, hdev]
      cases range.device with
      | true => simp
      | false =>
        simp only [Bool.false_eq_true, if_false, Function.update_self, List.length_cons]
        omega
    · rw [List.getElem?_eq_getElem hlt'] at hnone
      cases hnone
    · exact hno (hfirst ▸ hle)

/-- An entry has the capability of a page that was registered for it. -/
theorem Boots.entry {ranges : List UntypedRange} {t : UTTable} (h : Boots ranges t) {index : Nat}
    {entry : UTEntry} (hentry : t.untypeds[index]? = some entry) (hvalid : entry.valid = true) :
    ∃ page ∈ pages ranges,
      t.firstPaddr ≤ page.paddr ∧ t.pageOf page.paddr = index ∧ entry.cap = page.cap := by
  refine h.induct (I := fun t ps => ∀ index entry, t.untypeds[index]? = some entry →
    entry.valid = true → ∃ page ∈ ps,
      t.firstPaddr ≤ page.paddr ∧ t.pageOf page.paddr = index ∧ entry.cap = page.cap)
    ?_ ?_ index entry hentry hvalid
  · intro firstPaddr entries nextFreeVaddr index entry hentry hvalid
    rw [List.eq_of_mem_replicate (List.mem_of_getElem? hentry)] at hvalid
    cases hvalid
  · intro t ps page ih
    simp only [addPage, paddrToUt, Prog.wp_bind, Prog.wp_gets, wp_subU, Prog.wp_pure,
      Prog.wp_unwrap, Prog.wp_modify]
    refine ⟨fun hle => ⟨fun old hold => ?_, fun _ => trivial⟩, fun _ => trivial⟩
    intro index entry hentry hvalid
    change (t.untypeds.set (t.pageOf page.paddr) ⟨page.cap, true⟩)[index]? = some entry at hentry
    rw [List.getElem?_set] at hentry
    by_cases heq : t.pageOf page.paddr = index
    · have hlt : t.pageOf page.paddr < t.untypeds.length := (List.getElem?_eq_some_iff.mp hold).1
      rw [if_pos heq, if_pos hlt] at hentry
      cases hentry
      exact ⟨page, List.mem_append_right _ (List.mem_singleton.mpr rfl), hle, heq, rfl⟩
    · rw [if_neg heq] at hentry
      obtain ⟨page', hp, h⟩ := ih index entry hentry hvalid
      exact ⟨page', List.mem_append_left _ hp, h⟩

end UTTable

variable {config : KernelConfig} {bi : BootInfo}

theorem BootInfo.mem_zipIdx {x : UntypedDesc × Nat} :
    x ∈ bi.untypedList.zipIdx ↔ bi.untypedList[x.2]? = some x.1 := List.mem_zipIdx_iff_getElem?

theorem BootInfo.snd_lt {x : UntypedDesc × Nat} (h : x ∈ bi.untypedList.zipIdx) :
    x.2 < bi.untypedList.length := (List.getElem?_eq_some_iff.mp (BootInfo.mem_zipIdx.mp h)).1

theorem BootInfo.sizeOf_eq {x : UntypedDesc × Nat} (h : x ∈ bi.untypedList.zipIdx) :
    bi.sizeOf x.2 = x.1.sizeBits := by
  rw [BootInfo.sizeOf, BootInfo.mem_zipIdx.mp h]
  rfl

theorem BootInfo.paddrOf_eq {x : UntypedDesc × Nat} (h : x ∈ bi.untypedList.zipIdx) :
    bi.paddrOf x.2 = x.1.paddr := by
  rw [BootInfo.paddrOf, BootInfo.mem_zipIdx.mp h]
  rfl

/-- An untyped is named by its place. -/
theorem BootInfo.eq_of_snd {x y : UntypedDesc × Nat} (hx : x ∈ bi.untypedList.zipIdx)
    (hy : y ∈ bi.untypedList.zipIdx) (h : x.2 = y.2) : x = y := by
  have hxy := BootInfo.mem_zipIdx.mp hx
  rw [h, BootInfo.mem_zipIdx.mp hy] at hxy
  exact Prod.ext (Option.some.inj hxy).symm h

/-! ## Filling the table -/

/-- The pages that are left of an untyped. -/
def capsOf (avail : Nat → Nat) (x : UntypedDesc × Nat) : Nat :=
  if untypedInRange x.1 then nCaps x.1 (avail x.2) else 0

def totalCaps (avail : Nat → Nat) (xs : List (UntypedDesc × Nat)) : Nat :=
  (xs.map (capsOf avail)).sum

/-- Those of RAM, which are free afterwards. -/
def ramCaps (avail : Nat → Nat) (xs : List (UntypedDesc × Nat)) : Nat :=
  totalCaps avail (xs.filter fun x => !x.1.isDevice)

/-- There is memory for every page that is left, and an entry of the table. -/
structure Fillable (bi : BootInfo) (m : BootMem) : Prop where
  aligned : ∀ i, 2 ^ pageBits4K ∣ m.carving.used i
  fits : ∀ x ∈ bi.untypedList.zipIdx,
    m.carving.used x.2 + capsOf m.availBytes x * 2 ^ pageBits4K ≤ 2 ^ bi.sizeOf x.2
  table : ∀ x ∈ bi.untypedList.zipIdx, ∀ k < capsOf m.availBytes x,
    let paddr := paddrFromAvailBytes x.1 (m.availBytes x.2) pageBits4K + k * pageSize4K
    m.ut.firstPaddr ≤ paddr ∧ m.ut.pageOf paddr < m.ut.untypeds.length

/-- A range of the table, and what was retyped for it. -/
structure Recorded (m₁ m : BootMem) (x : UntypedDesc × Nat) (range : UntypedRange) : Prop where
  nPages : range.nPages = capsOf m₁.availBytes x
  paddr : range.paddr = paddrFromAvailBytes x.1 (m₁.availBytes x.2) pageBits4K
  device : range.device = x.1.isDevice
  objects : ∀ k < range.nPages, ⟨.slot (range.cptr + k), x.2,
    m₁.carving.used x.2 + k * 2 ^ pageBits4K, pageBits4K⟩ ∈ m.carving.objects

theorem Recorded.mono {m₁ m m' : BootMem} {x : UntypedDesc × Nat} {range : UntypedRange}
    (h : Recorded m₁ m x range) (hsub : ∀ o ∈ m.carving.objects, o ∈ m'.carving.objects) :
    Recorded m₁ m' x range where
  nPages := h.nPages
  paddr := h.paddr
  device := h.device
  objects k hk := hsub _ (h.objects k hk)

/-- The loop from `m₁` on, with `rest` still to do. -/
structure Filling (bi : BootInfo) (m₁ : BootMem) (rest : List (UntypedDesc × Nat))
    (ranges : List UntypedRange) (m : BootMem) : Prop where
  tidy : m.Tidy bi
  avail : m.availBytes = m₁.availBytes
  nCnodes : m.nCnodes = m₁.nCnodes
  keeps : ∀ o ∈ m₁.carving.objects, o ∈ m.carving.objects
  boots : Prog.forEach UTTable.addUntypedRange ranges m₁.ut = .ok () m.ut
  firstPaddr : m.ut.firstPaddr = m₁.ut.firstPaddr
  length : m.ut.untypeds.length = m₁.ut.untypeds.length
  recorded : ∀ range ∈ ranges, ∃ x ∈ bi.untypedList.zipIdx, Recorded m₁ m x range
  done : ∀ x ∈ bi.untypedList.zipIdx, x ∉ rest → 0 < capsOf m₁.availBytes x →
    ∃ range ∈ ranges, Recorded m₁ m x range
  left : ∀ x ∈ rest, m.carving.used x.2 = m₁.carving.used x.2
  marks : ∀ x ∈ bi.untypedList.zipIdx, x ∉ rest →
    m.carving.used x.2 = m₁.carving.used x.2 + capsOf m₁.availBytes x * 2 ^ pageBits4K
  aligned : ∀ i, 2 ^ pageBits4K ∣ m.carving.used i
  slots : m.firstFreeSlot + totalCaps m₁.availBytes rest =
    m₁.firstFreeSlot + totalCaps m₁.availBytes bi.untypedList.zipIdx
  free : (m.ut.freeUntypeds pageBits4K).length + ramCaps m₁.availBytes rest =
    (m₁.ut.freeUntypeds pageBits4K).length + ramCaps m₁.availBytes bi.untypedList.zipIdx

theorem Filling.start {m₁ : BootMem} (htidy : m₁.Tidy bi) (hf : Fillable bi m₁) :
    Filling bi m₁ bi.untypedList.zipIdx [] m₁ where
  tidy := htidy
  avail := rfl
  nCnodes := rfl
  keeps _ ho := ho
  boots := rfl
  firstPaddr := rfl
  length := rfl
  recorded _ hr := by cases hr
  done x hx hno := absurd hx hno
  left _ _ := rfl
  marks x hx hno := absurd hx hno
  aligned := hf.aligned
  slots := rfl
  free := rfl

/-- The slots for all pages can be reached. -/
def EnoughSlots (bi : BootInfo) (m : BootMem) : Prop :=
  m.firstFreeSlot + totalCaps m.availBytes bi.untypedList.zipIdx ≤ m.nCnodes * cnodeSlots

/-- The pages of the current untyped have been retyped. -/
theorem Filling.next {m₁ m : BootMem} {x : UntypedDesc × Nat} {xs : List (UntypedDesc × Nat)}
    {ranges ranges' : List UntypedRange} {t : UTTable} (h : Filling bi m₁ (x :: xs) ranges m)
    (hsuf : (x :: xs) <:+ bi.untypedList.zipIdx)
    (hroom : m.Room bi x.2 pageBits4K m.slotKey (capsOf m₁.availBytes x))
    (hboots : Prog.forEach UTTable.addUntypedRange ranges' m₁.ut = .ok () t)
    (hfirst : t.firstPaddr = m₁.ut.firstPaddr)
    (hlen : t.untypeds.length = m₁.ut.untypeds.length)
    (hfree : (t.freeUntypeds pageBits4K).length = (m.ut.freeUntypeds pageBits4K).length +
      if x.1.isDevice then 0 else capsOf m₁.availBytes x)
    (hranges : (capsOf m₁.availBytes x = 0 ∧ ranges' = ranges) ∨
      ranges' = ranges ++ [⟨paddrFromAvailBytes x.1 (m₁.availBytes x.2) pageBits4K,
        m.firstFreeSlot, capsOf m₁.availBytes x, x.1.isDevice⟩]) :
    Filling bi m₁ xs ranges'
      ({ m with ut := t }.placeSlots x.2 (capsOf m₁.availBytes x)) := by
  have hx : x ∈ bi.untypedList.zipIdx := hsuf.subset List.mem_cons_self
  have hused : m.carving.used x.2 = m₁.carving.used x.2 := h.left x List.mem_cons_self
  have hstart : m.carving.start x.2 pageBits4K = m₁.carving.used x.2 := by
    rw [Carving.start_of_dvd (h.aligned x.2), hused]
  have hsub : ∀ o ∈ m.carving.objects,
      o ∈ ({ m with ut := t }.placeSlots x.2 (capsOf m₁.availBytes x)).carving.objects :=
    fun o ho => Carving.mem_place.mpr (.inl ho)
  -- the range of this untyped
  have hnew : Recorded m₁ ({ m with ut := t }.placeSlots x.2 (capsOf m₁.availBytes x)) x
      ⟨paddrFromAvailBytes x.1 (m₁.availBytes x.2) pageBits4K, m.firstFreeSlot,
        capsOf m₁.availBytes x, x.1.isDevice⟩ := by
    refine ⟨rfl, rfl, rfl, fun k hk => Carving.mem_place.mpr (.inr ⟨k, hk, ?_⟩)⟩
    rw [← hstart]
    rfl
  have htidy : BootMem.Tidy bi { m with ut := t } := 
    ⟨h.tidy.sound, h.tidy.keys, h.tidy.fresh, h.tidy.regions⟩
  refine ⟨htidy.placeSlots (BootInfo.snd_lt hx) ⟨hroom.reachable, hroom.fits⟩, h.avail, h.nCnodes,
    fun o ho => hsub o (h.keeps o ho), hboots, hfirst, hlen, ?_, ?_, ?_, ?_, ?_, ?_, ?_⟩
  · intro range hr
    obtain ⟨-, rfl⟩ | rfl := hranges
    · obtain ⟨y, hy, hrec⟩ := h.recorded range hr
      exact ⟨y, hy, hrec.mono hsub⟩
    · obtain hr | hr := List.mem_append.mp hr
      · obtain ⟨y, hy, hrec⟩ := h.recorded range hr
        exact ⟨y, hy, hrec.mono hsub⟩
      · rw [List.mem_singleton.mp hr]
        exact ⟨x, hx, hnew⟩
  · intro y hy hno hpos
    by_cases hyx : y = x
    · subst hyx
      obtain ⟨h0, -⟩ | rfl := hranges
      · omega
      · exact ⟨_, List.mem_append_right _ (List.mem_singleton.mpr rfl), hnew⟩
    · obtain ⟨range, hr, hrec⟩ := h.done y hy (by simp [hyx, hno]) hpos
      refine ⟨range, ?_, hrec.mono hsub⟩
      obtain ⟨-, rfl⟩ | rfl := hranges
      · exact hr
      · exact List.mem_append_left _ hr
  · intro y hy
    have hdistinct : (bi.untypedList.zipIdx.map Prod.snd).Nodup := by
      rw [List.zipIdx_map_snd]
      exact List.nodup_range'
    have hnodup : ((x :: xs).map Prod.snd).Nodup := hdistinct.sublist (hsuf.sublist.map _)
    have hne : y.2 ≠ x.2 := by
      intro heq
      refine (List.nodup_cons.mp hnodup).1 ?_
      rw [← heq]
      exact List.mem_map.mpr ⟨y, hy, rfl⟩
    show (m.carving.place _ _ _ _).used y.2 = _
    rw [Carving.place_used_of_ne hne]
    exact h.left y (List.mem_cons_of_mem _ hy)
  · intro y hy hno
    show (m.carving.place x.2 pageBits4K m.slotKey (capsOf m₁.availBytes x)).used y.2 = _
    by_cases hyx : y = x
    · subst hyx
      rw [Carving.place_used_self, hstart]
    · have hne : y.2 ≠ x.2 := fun heq => hyx (BootInfo.eq_of_snd hy hx heq)
      rw [Carving.place_used_of_ne hne]
      exact h.marks y hy (by simp [hyx, hno])
  · intro j
    show _ ∣ (m.carving.place x.2 pageBits4K m.slotKey (capsOf m₁.availBytes x)).used j
    by_cases hj : j = x.2
    · subst hj
      exact Carving.dvd_place_used ..
    · rw [Carving.place_used_of_ne hj]
      exact h.aligned j
  · have hslots := h.slots
    simp only [totalCaps, List.map_cons, List.sum_cons] at hslots
    exact (Nat.add_assoc ..).trans hslots
  · have hfree' := h.free
    show (t.freeUntypeds pageBits4K).length + _ = _
    rw [hfree, ← hfree']
    unfold ramCaps totalCaps
    cases hdev : x.1.isDevice with
    | true => simp [hdev]
    | false =>
      simp only [List.filter_cons, hdev, Bool.not_false, if_true, List.map_cons, List.sum_cons,
        Bool.false_eq_true, if_false]
      omega

/-- What is recorded of an untyped lies in the table. -/
theorem Filling.room {m₁ m : BootMem} {x : UntypedDesc × Nat} {xs : List (UntypedDesc × Nat)}
    {ranges : List UntypedRange} (h : Filling bi m₁ (x :: xs) ranges m) (hf : Fillable bi m₁)
    (hsuf : (x :: xs) <:+ bi.untypedList.zipIdx) (hslots : EnoughSlots bi m₁) :
    m.Room bi x.2 pageBits4K m.slotKey (capsOf m₁.availBytes x) where
  reachable k hk := by
    have hsum := h.slots
    simp only [totalCaps, List.map_cons, List.sum_cons] at hsum
    unfold EnoughSlots totalCaps at hslots
    rw [← h.nCnodes, ← hsum] at hslots
    refine (Nat.div_lt_iff_lt_mul (by decide)).mpr (Nat.lt_of_lt_of_le ?_ hslots)
    exact Nat.add_lt_add_left (Nat.lt_of_lt_of_le hk (Nat.le_add_right _ _)) _
  fits := by
    have hused : m.carving.used x.2 = m₁.carving.used x.2 := h.left x List.mem_cons_self
    rw [Carving.Fits, Carving.start_of_dvd (h.aligned x.2), hused]
    exact hf.fits x (hsuf.subset List.mem_cons_self)

theorem addUntyped_filling {m₁ m : BootMem} {x : UntypedDesc × Nat}
    {xs : List (UntypedDesc × Nat)} {ranges : List UntypedRange}
    (h : Filling bi m₁ (x :: xs) ranges m) (hf : Fillable bi m₁)
    (hsuf : (x :: xs) <:+ bi.untypedList.zipIdx) :
    (addUntyped config bi x).wp (fun _ m' => ∃ ranges', Filling bi m₁ xs ranges' m')
      (fun _ _ => ¬ EnoughSlots bi m₁) (fun _ => False) m := by
  have hx : x ∈ bi.untypedList.zipIdx := hsuf.subset List.mem_cons_self
  have hle : m.carving.used x.2 ≤ 2 ^ bi.sizeOf x.2 := h.tidy.sound.used_le x.2
  unfold addUntyped
  by_cases hin : untypedInRange x.1 = true
  · have hcaps : nCaps x.1 (m.availBytes x.2) = capsOf m₁.availBytes x := by
      rw [capsOf, if_pos hin, h.avail]
    have hpaddr : paddrFromAvailBytes x.1 (m.availBytes x.2) pageBits4K =
        paddrFromAvailBytes x.1 (m₁.availBytes x.2) pageBits4K := by rw [h.avail]
    simp only [if_pos hin, Prog.wp_bind, Prog.wp_gets, hcaps, hpaddr]
    -- the retypes that follow, whatever the table is by now
    have hretype : ∀ (t : UTTable) (ranges' : List UntypedRange),
        Prog.forEach UTTable.addUntypedRange ranges' m₁.ut = .ok () t →
        t.firstPaddr = m₁.ut.firstPaddr → t.untypeds.length = m₁.ut.untypeds.length →
        (t.freeUntypeds pageBits4K).length = (m.ut.freeUntypeds pageBits4K).length +
          (if x.1.isDevice then 0 else capsOf m₁.availBytes x) →
        ((capsOf m₁.availBytes x = 0 ∧ ranges' = ranges) ∨
          ranges' = ranges ++ [⟨paddrFromAvailBytes x.1 (m₁.availBytes x.2) pageBits4K,
            m.firstFreeSlot, capsOf m₁.availBytes x, x.1.isDevice⟩]) →
        (retypeCaps config bi x.2 (capsOf m₁.availBytes x)).wp
          (fun _ m' => ∃ ranges', Filling bi m₁ xs ranges' m')
          (fun _ _ => ¬ EnoughSlots bi m₁) (fun _ => False) { m with ut := t } := by
      intro t ranges' hboots hfirst hlen hfree hranges
      have hplaces : BootMem.Places bi (retypeCaps config bi x.2 (capsOf m₁.availBytes x))
          { m with ut := t } x.2 pageBits4K m.slotKey (capsOf m₁.availBytes x)
          ({ m with ut := t }.placeSlots x.2 (capsOf m₁.availBytes x)) :=
        BootMem.retypeCaps_places hle (h.aligned x.2)
      refine Prog.wp_mono hplaces ?_ ?_ (fun _ h => h)
      · rintro _ m' ⟨hroom, rfl⟩
        exact ⟨ranges', h.next hsuf ⟨hroom.reachable, hroom.fits⟩ hboots hfirst hlen hfree
          hranges⟩
      · intro _ _ hno hslots
        have hroom := h.room hf hsuf hslots
        exact hno ⟨hroom.reachable, hroom.fits⟩
    rw [Prog.wp_ite]
    constructor
    · intro hpos
      rw [Prog.wp_bind, Prog.wp_zoom]
      refine Prog.wp_mono (Prog.wp_run (UTTable.addUntypedRange_spec ?_)) ?_
        (fun _ _ h => h.elim) (fun _ h => h)
      rotate_left
      · rintro _ t ⟨⟨hfirst, hlen, hfree⟩, hrun⟩
        refine hretype t (ranges ++ [_]) ?_ (hfirst.trans h.firstPaddr) (hlen.trans h.length)
          hfree (.inr rfl)
        rw [Prog.forEach_append]
        refine (Prog.bind_of_ok h.boots).trans ?_
        exact (Prog.bind_of_ok hrun).trans rfl
      · intro page hpage
        obtain ⟨k, hk, rfl⟩ := List.mem_map.mp hpage
        have htable := hf.table x hx k (List.mem_range.mp hk)
        simp only [UTTable.pageOf, h.firstPaddr, h.length] at htable ⊢
        exact htable
    · intro hpos
      have h0 : capsOf m₁.availBytes x = 0 := by omega
      exact hretype m.ut ranges h.boots h.firstPaddr h.length (by simp [h0]) (.inl ⟨h0, rfl⟩)
  · have hcaps : capsOf m₁.availBytes x = 0 := by
      rw [capsOf, if_neg hin]
    rw [if_neg hin, Prog.wp_pure]
    have hroom : m.Room bi x.2 pageBits4K m.slotKey (capsOf m₁.availBytes x) := by
      rw [hcaps]
      exact BootMem.room_zero hle (h.aligned x.2)
    have hnext := h.next hsuf hroom h.boots h.firstPaddr h.length (by simp [hcaps])
      (.inl ⟨hcaps, rfl⟩)
    rw [hcaps, BootMem.placeSlots_zero (m := { m with ut := m.ut }) (h.aligned x.2)] at hnext
    exact ⟨ranges, hnext⟩

theorem addUntypeds_filling {m₁ : BootMem} (htidy : m₁.Tidy bi) (hf : Fillable bi m₁) :
    (Prog.forEach (addUntyped config bi) bi.untypedList.zipIdx).wp
      (fun _ m => ∃ ranges, Filling bi m₁ [] ranges m)
      (fun _ _ => ¬ EnoughSlots bi m₁) (fun _ => False) m₁ :=
  Prog.wp_forEach_list (I := fun rest m => ∃ ranges, Filling bi m₁ rest ranges m)
    ⟨[], Filling.start htidy hf⟩
    fun _ _ _ hsuf ⟨_, h⟩ => addUntyped_filling h hf hsuf

/-! ## The node blocks -/

/-- `n` node blocks took a 4K untyped and a slot each. -/
structure Noded (m₁ : BootMem) (n : Nat) (m : BootMem) : Prop where
  carving : m.carving = m₁.carving
  nCnodes : m.nCnodes = m₁.nCnodes
  slots : m.firstFreeSlot = m₁.firstFreeSlot + n
  untypeds : m.ut.untypeds = m₁.ut.untypeds
  firstPaddr : m.ut.firstPaddr = m₁.ut.firstPaddr
  free : m.ut.freeUntypeds pageBits4K = (m₁.ut.freeUntypeds pageBits4K).drop n
  some : n ≤ (m₁.ut.freeUntypeds pageBits4K).length

theorem addBotLvlNodes_noded {m₁ : BootMem} (n : Nat) :
    (Prog.forEach (fun _ => addBotLvlNode) (List.range n)).wp (fun _ m => Noded m₁ n m)
      (fun _ _ => ¬ (n ≤ (m₁.ut.freeUntypeds pageBits4K).length ∧
        m₁.firstFreeSlot + n ≤ m₁.nCnodes * cnodeSlots)) (fun _ => False) m₁ := by
  refine Prog.wp_forEach_range (I := Noded m₁) ⟨rfl, rfl, rfl, rfl, rfl, rfl, Nat.zero_le _⟩ ?_
  intro k hk m h
  rw [addBotLvlNode, Prog.wp_bind, Prog.wp_gets, h.free]
  cases hdrop : (m₁.ut.freeUntypeds pageBits4K).drop k with
  | nil =>
    rw [Prog.wp_fail]
    rintro ⟨hn, -⟩
    have hle := List.drop_eq_nil_iff.mp hdrop
    omega
  | cons ut rest =>
    have hlt : k < (m₁.ut.freeUntypeds pageBits4K).length := by
      refine Nat.lt_of_not_le fun hle => ?_
      rw [List.drop_eq_nil_iff.mpr hle] at hdrop
      cases hdrop
    simp only [Prog.wp_bind, Prog.wp_modify, Prog.wp_get, Prog.wp_ite, Prog.wp_fail]
    refine ⟨fun _ => ⟨h.carving, h.nCnodes, ?_, h.untypeds, h.firstPaddr, ?_, hlt⟩, ?_⟩
    · show m.firstFreeSlot + 1 = _
      rw [h.slots]
      exact Nat.add_assoc ..
    · show Function.update m.ut.freeUntypeds pageBits4K rest pageBits4K = _
      rw [Function.update_self, ← List.drop_drop, hdrop]
      rfl
    · rintro hno ⟨-, hslots⟩
      refine hno ((Nat.div_lt_iff_lt_mul (by decide)).mpr ?_)
      rw [h.slots, h.nCnodes]
      exact Nat.lt_of_lt_of_le (Nat.add_lt_add_left hk _) hslots

theorem Noded.tidy {m₁ m : BootMem} {n : Nat} (h : Noded m₁ n m) (ht : m₁.Tidy bi) :
    m.Tidy bi where
  sound := h.carving ▸ ht.sound
  keys := h.carving ▸ ht.keys
  fresh o ho c hc := by
    rw [h.carving] at ho
    rw [h.slots]
    exact Nat.lt_of_lt_of_le (ht.fresh o ho c hc) (Nat.le_add_right _ _)
  regions := h.carving ▸ ht.regions

end Smos.RootServer
