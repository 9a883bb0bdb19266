/-
Smos.RootServer.UtTable — the untyped table, from boot on.

The table is an array of nodes, one for each page of physical memory from
`first_paddr` on. Boot registers ranges of pages, RAM and device memory
alike: every page of a range gets a capability and `valid = true`, and the
pages of RAM go on the free list of 4K untypeds as well. A page is named by
its index in the table.
-/
import Mathlib.Data.List.Nodup
import Mathlib.Data.List.Perm.Subperm
import Smos.RootServer.Allocators

namespace Smos.RootServer

open Smos.Base

/-- The node of a table entry. -/
def utNode (index : Nat) : Nat := utTableVaddr + index * utSize

/-- Pages that boot registers: `add_untyped_range`'s arguments. -/
structure UntypedRange where
  paddr : Nat
  cptr : Slot
  nPages : Nat
  device : Bool
  deriving DecidableEq, Repr

/-- One page of a range. -/
structure UntypedPage where
  paddr : Nat
  cap : Slot
  device : Bool
  deriving DecidableEq, Repr

def UntypedRange.pages (range : UntypedRange) : List UntypedPage :=
  (List.range range.nPages).map fun i =>
    ⟨range.paddr + i * pageSize4K, range.cptr + i, range.device⟩

/-! ## The memory that the table covers -/

/-- `PHYSICAL_ADDRESS_LIMIT`. -/
def physicalAddressLimit : Nat := 0xdfffffff

/-- `MAX_PHYSICAL_SIZE_BITS`. -/
def maxPhysicalSizeBits : Nat := 32

/-- `sel4::UntypedDesc`. -/
structure UntypedDesc where
  paddr : Nat
  sizeBits : Nat
  isDevice : Bool
  deriving DecidableEq, Repr

/-- `untyped_in_range`. -/
def untypedInRange (untyped : UntypedDesc) : Bool :=
  untyped.paddr ≤ physicalAddressLimit && untyped.sizeBits ≤ maxPhysicalSizeBits

/-- `find_memory_bounds`; `none` is the failing assertion that there is any memory. -/
def findMemoryBounds (untypedList : List UntypedDesc) : Option (Nat × Nat) :=
  let memory := (untypedList.filter untypedInRange).foldl
    (fun memory untyped =>
      (min memory.1 untyped.paddr, max memory.2 (untyped.paddr + 2 ^ untyped.sizeBits)))
    (physicalAddressLimit, 0)
  if memory.2 > memory.1 then some memory else none

/-- The most pages the table can have: the last untyped it covers begins at the limit and has
the largest size. -/
def physicalPages : Nat := (physicalAddressLimit + 2 ^ maxPhysicalSizeBits) / pageSize4K

theorem findMemoryBounds_le {untypedList : List UntypedDesc} {start limit : Nat}
    (h : findMemoryBounds untypedList = some (start, limit)) :
    (limit - start) / pageSize4K ≤ physicalPages := by
  have hfold : ∀ (us : List UntypedDesc) (memory : Nat × Nat), (∀ u ∈ us, untypedInRange u) →
      memory.2 ≤ physicalAddressLimit + 2 ^ maxPhysicalSizeBits →
      (us.foldl (fun memory untyped =>
        (min memory.1 untyped.paddr, max memory.2 (untyped.paddr + 2 ^ untyped.sizeBits)))
        memory).2 ≤ physicalAddressLimit + 2 ^ maxPhysicalSizeBits := by
    intro us
    induction us with
    | nil => exact fun _ _ h => h
    | cons u us ih =>
      intro memory hall hle
      refine ih _ (fun u hu => hall u (List.mem_cons_of_mem _ hu)) (Nat.max_le.mpr ⟨hle, ?_⟩)
      have hu := hall u List.mem_cons_self
      simp only [untypedInRange, Bool.and_eq_true, decide_eq_true_eq] at hu
      exact Nat.add_le_add hu.1 (Nat.pow_le_pow_right (by decide) hu.2)
  unfold findMemoryBounds at h
  dsimp only at h
  split at h
  · have hle := hfold (untypedList.filter untypedInRange) (physicalAddressLimit, 0)
      (fun u hu => (List.mem_filter.mp hu).2) (Nat.zero_le _)
    rw [Option.some.inj h] at hle
    exact Nat.div_le_div_right (Nat.le_trans (Nat.sub_le _ _) hle)
  · cases h

namespace UTTable

/-- `UTTable::new`, over memory that is still zero. -/
def new (firstPaddr entries nextFreeVaddr : Nat) : UTTable where
  firstPaddr := firstPaddr
  untypeds := List.replicate entries ⟨0, false⟩
  freeUntypeds := fun _ => []
  freeStructures := []
  nextFreeVaddr := nextFreeVaddr

/-- The index of an address in the table. -/
def pageOf (t : UTTable) (paddr : Nat) : Nat := (paddr - t.firstPaddr) / pageSize4K

/-- `paddr_to_ut`. -/
def paddrToUt (paddr : Nat) : Prog Panic UTTable Sel4Error Nat := do
  let firstPaddr ← Prog.gets UTTable.firstPaddr
  let offset ← subU paddr firstPaddr
  pure (offset / pageSize4K)

/-- A registered node, which is on the 4K list when it is RAM. -/
def setPage (t : UTTable) (index : Nat) (page : UntypedPage) : UTTable :=
  { t with
    untypeds := t.untypeds.set index ⟨page.cap, true⟩
    freeUntypeds :=
      if page.device then t.freeUntypeds
      else Function.update t.freeUntypeds pageBits4K
        (⟨utNode index, page.cap, pageBits4K⟩ :: t.freeUntypeds pageBits4K) }

/-- One turn of `add_untyped_range`. -/
def addPage (page : UntypedPage) : Prog Panic UTTable Sel4Error Unit := do
  let index ← paddrToUt page.paddr
  let _ ← (← Prog.gets fun t => t.untypeds[index]?) |> Prog.unwrap .rootServerFault
  Prog.modify fun t => t.setPage index page

/-- `add_untyped_range`. -/
def addUntypedRange (range : UntypedRange) : Prog Panic UTTable Sel4Error Unit :=
  Prog.forEach addPage range.pages

/-- The pages of all ranges, in the order they are registered. -/
def pages (ranges : List UntypedRange) : List UntypedPage :=
  ranges.flatMap UntypedRange.pages

/-- The table that boot leaves. -/
def Boots (ranges : List UntypedRange) (t : UTTable) : Prop :=
  ∃ firstPaddr entries nextFreeVaddr,
    Prog.forEach addUntypedRange ranges (.new firstPaddr entries nextFreeVaddr) = .ok () t

/-! ## What is registered -/

/-- The page has been registered as memory of that kind. -/
def Registered (t : UTTable) (ps : List UntypedPage) (device : Bool) (index : Nat) : Prop :=
  ∃ page ∈ ps, page.device = device ∧ t.firstPaddr ≤ page.paddr ∧ t.pageOf page.paddr = index

/-- The valid entries are those of the registered pages. -/
structure Describes (t : UTTable) (ps : List UntypedPage) : Prop where
  valid : ∀ index entry, t.untypeds[index]? = some entry →
    (entry.valid = true ↔ ∃ device, t.Registered ps device index)
  inTable : ∀ device index, t.Registered ps device index → index < t.untypeds.length
  above : ∀ page ∈ ps, t.firstPaddr ≤ page.paddr

theorem new_describes (firstPaddr entries nextFreeVaddr : Nat) :
    Describes (.new firstPaddr entries nextFreeVaddr) [] where
  valid index entry h := by
    rw [List.eq_of_mem_replicate (List.mem_of_getElem? h)]
    simp [Registered]
  inTable device index h := by
    obtain ⟨page, hp, -⟩ := h
    cases hp
  above page hp := by cases hp

theorem registered_append {t : UTTable} {ps : List UntypedPage} {page : UntypedPage}
    {device : Bool} {index : Nat} : t.Registered (ps ++ [page]) device index ↔
      t.Registered ps device index ∨
        page.device = device ∧ t.firstPaddr ≤ page.paddr ∧ t.pageOf page.paddr = index := by
  simp only [Registered, List.mem_append, List.mem_singleton]
  constructor
  · rintro ⟨page', hp | rfl, h⟩
    · exact .inl ⟨page', hp, h⟩
    · exact .inr h
  · rintro (⟨page', hp, h⟩ | h)
    · exact ⟨page', .inl hp, h⟩
    · exact ⟨page, .inr rfl, h⟩

theorem Describes.addPage {t : UTTable} {ps : List UntypedPage} (h : t.Describes ps)
    (page : UntypedPage) :
    (addPage page).wp (fun _ t' => t'.Describes (ps ++ [page])) (fun _ _ => False)
      (fun _ => True) t := by
  simp only [UTTable.addPage, paddrToUt, Prog.wp_bind, Prog.wp_gets, wp_subU, Prog.wp_pure,
    Prog.wp_unwrap, Prog.wp_modify]
  refine ⟨fun hle => ⟨fun entry hentry => ?_, fun _ => trivial⟩, fun _ => trivial⟩
  have hlt : t.pageOf page.paddr < t.untypeds.length := (List.getElem?_eq_some_iff.mp hentry).1
  have hpage : ∀ device index, (t.setPage (t.pageOf page.paddr) page).Registered (ps ++ [page])
      device index ↔ t.Registered ps device index ∨
        page.device = device ∧ t.firstPaddr ≤ page.paddr ∧ t.pageOf page.paddr = index :=
    fun device index => registered_append (t := t)
  refine ⟨?_, ?_, ?_⟩
  · intro index entry' hentry'
    refine Iff.trans ?_ (exists_congr fun device => (hpage device index).symm)
    change (t.untypeds.set (t.pageOf page.paddr) ⟨page.cap, true⟩)[index]? = some entry' at hentry'
    rw [List.getElem?_set] at hentry'
    by_cases heq : t.pageOf page.paddr = index
    · rw [if_pos heq, if_pos hlt] at hentry'
      cases hentry'
      exact ⟨fun _ => ⟨page.device, .inr ⟨rfl, hle, heq⟩⟩, fun _ => rfl⟩
    · rw [if_neg heq] at hentry'
      rw [h.valid index entry' hentry']
      simp [heq]
  · intro device index hreg
    show index < (t.untypeds.set _ _).length
    rw [List.length_set]
    obtain hreg | ⟨-, -, rfl⟩ := (hpage device index).mp hreg
    · exact h.inTable device index hreg
    · exact hlt
  · intro page' hp
    obtain hp | hp := List.mem_append.mp hp
    · exact h.above page' hp
    · rw [List.mem_singleton.mp hp]
      exact hle

/-- What every page that is added keeps holds of the table that boot leaves. -/
theorem Boots.induct {I : UTTable → List UntypedPage → Prop}
    (hnew : ∀ firstPaddr entries nextFreeVaddr, I (.new firstPaddr entries nextFreeVaddr) [])
    (hstep : ∀ t ps page, I t ps → (addPage page).wp (fun _ t' => I t' (ps ++ [page]))
      (fun _ _ => False) (fun _ => True) t)
    {ranges : List UntypedRange} {t : UTTable} (h : Boots ranges t) : I t (pages ranges) := by
  obtain ⟨firstPaddr, entries, nextFreeVaddr, hrun⟩ := h
  have hloop : ∀ (ps qs : List UntypedPage) (t₀ : UTTable), I t₀ ps →
      (Prog.forEach UTTable.addPage qs).wp (fun _ t' => I t' (ps ++ qs))
        (fun _ _ => False) (fun _ => True) t₀ := by
    intro ps qs
    induction qs generalizing ps with
    | nil =>
      intro t₀ h₀
      rw [List.append_nil]
      exact h₀
    | cons page qs ih =>
      intro t₀ h₀
      simp only [Prog.forEach, Prog.wp_prog_bind]
      refine Prog.wp_mono (hstep t₀ ps page h₀) ?_ (fun _ _ h => h) (fun _ h => h)
      intro _ t₁ h₁
      have := ih (ps ++ [page]) t₁ h₁
      rwa [List.append_assoc, List.singleton_append] at this
  have hflat : Prog.forEach addUntypedRange ranges = Prog.forEach UTTable.addPage (pages ranges) :=
    Prog.forEach_flatMap UTTable.addPage UntypedRange.pages ranges
  rw [hflat] at hrun
  have := Prog.wp_ok (hloop [] _ _ (hnew firstPaddr entries nextFreeVaddr)) hrun
  rwa [List.nil_append] at this

/-- Boot registers every page of its ranges. -/
theorem Boots.describes {ranges : List UntypedRange} {t : UTTable} (h : Boots ranges t) :
    t.Describes (pages ranges) :=
  h.induct new_describes fun _ _ page h => h.addPage page

theorem Describes.congr {t t' : UTTable} {ps : List UntypedPage} (h : t.Describes ps)
    (hu : t'.untypeds = t.untypeds) (hp : t'.firstPaddr = t.firstPaddr) : t'.Describes ps := by
  have hreg : ∀ device index, t'.Registered ps device index ↔ t.Registered ps device index := by
    intro device index
    simp only [Registered, pageOf, hp]
  refine ⟨fun index entry hentry => ?_, fun device index hr => ?_, fun page hpage => ?_⟩
  · rw [hu] at hentry
    rw [h.valid index entry hentry]
    exact exists_congr fun device => (hreg device index).symm
  · rw [hu]
    exact h.inTable device index ((hreg device index).mp hr)
  · rw [hp]
    exact h.above page hpage

/-! ## What is free -/

/-- The pages of RAM. -/
def ram (ps : List UntypedPage) : List UntypedPage := ps.filter fun page => !page.device

/-- The untyped of a page. -/
def pageUt (t : UTTable) (page : UntypedPage) : UT :=
  ⟨utNode (t.pageOf page.paddr), page.cap, pageBits4K⟩

/-- The pages of RAM are on the 4K list, last one first, and nothing else is free. -/
structure Stocked (t : UTTable) (ps : List UntypedPage) : Prop where
  pages : t.freeUntypeds pageBits4K = (ram ps).reverse.map t.pageUt
  others : ∀ b, b ≠ pageBits4K → t.freeUntypeds b = []
  spare : t.freeStructures = []

theorem Stocked.addPage {t : UTTable} {ps : List UntypedPage} (h : t.Stocked ps)
    (page : UntypedPage) :
    (addPage page).wp (fun _ t' => t'.Stocked (ps ++ [page])) (fun _ _ => False)
      (fun _ => True) t := by
  simp only [UTTable.addPage, paddrToUt, Prog.wp_bind, Prog.wp_gets, wp_subU, Prog.wp_pure,
    Prog.wp_unwrap, Prog.wp_modify]
  refine ⟨fun _ => ⟨fun _ _ => ?_, fun _ => trivial⟩, fun _ => trivial⟩
  have hpages := h.pages
  refine ⟨?_, fun b hb => ?_, h.spare⟩
  · show (if page.device then t.freeUntypeds else _) pageBits4K = _
    cases hdev : page.device with
    | true =>
      simp only [ram, List.filter_append, List.filter_cons, hdev, if_true, Bool.not_true,
        Bool.false_eq_true, if_false, List.filter_nil, List.append_nil]
      exact hpages
    | false =>
      simp only [ram, List.filter_append, List.filter_cons, hdev, Bool.not_false, if_true,
        Bool.false_eq_true, if_false, List.filter_nil, List.reverse_append, List.reverse_singleton,
        List.singleton_append, List.map_cons, Function.update_self, hpages]
      rfl
  · show (if page.device then t.freeUntypeds else _) b = []
    cases page.device with
    | true => exact h.others b hb
    | false =>
      simp only [Bool.false_eq_true, if_false, Function.update_of_ne hb]
      exact h.others b hb

/-- Boot leaves every page of RAM free. -/
theorem Boots.stocked {ranges : List UntypedRange} {t : UTTable} (h : Boots ranges t) :
    t.Stocked (UTTable.pages ranges) := by
  refine h.induct (fun _ _ _ => ⟨rfl, fun _ _ => rfl, rfl⟩) fun _ _ page h => h.addPage page

/-- The kernel hands out every page of RAM once. -/
structure Ram (ranges : List UntypedRange) : Prop where
  aligned : ∀ page ∈ ram (pages ranges), 2 ^ pageBits4K ∣ page.paddr
  distinct : ((ram (pages ranges)).map UntypedPage.paddr).Nodup

theorem pageOf_inj {t : UTTable} {x y : Nat} (hx : 2 ^ pageBits4K ∣ x) (hy : 2 ^ pageBits4K ∣ y)
    (hx' : t.firstPaddr ≤ x) (hy' : t.firstPaddr ≤ y) (h : t.pageOf x = t.pageOf y) : x = y := by
  obtain ⟨i, rfl⟩ := hx
  obtain ⟨j, rfl⟩ := hy
  unfold pageOf pageSize4K at h
  unfold pageBits4K at *
  omega

theorem Boots.mem_table {ranges : List UntypedRange} {t : UTTable} (h : Boots ranges t)
    {page : UntypedPage} (hpage : page ∈ ram (UTTable.pages ranges)) :
    t.firstPaddr ≤ page.paddr ∧ t.pageOf page.paddr < t.untypeds.length := by
  have hp : page ∈ UTTable.pages ranges := List.mem_of_mem_filter hpage
  have habove := h.describes.above page hp
  exact ⟨habove, h.describes.inTable page.device _ ⟨page, hp, rfl, habove, rfl⟩⟩

/-- The entries of the pages of RAM are different ones. -/
theorem Boots.pageOf_nodup {ranges : List UntypedRange} {t : UTTable} (hram : Ram ranges)
    (h : Boots ranges t) :
    ((ram (UTTable.pages ranges)).map fun page => t.pageOf page.paddr).Nodup := by
  have hcomp : (fun page : UntypedPage => t.pageOf page.paddr) = t.pageOf ∘ UntypedPage.paddr := rfl
  rw [hcomp, ← List.map_map]
  refine List.Nodup.map_on ?_ hram.distinct
  intro x hx y hy heq
  obtain ⟨page, hpage, rfl⟩ := List.mem_map.mp hx
  obtain ⟨page', hpage', rfl⟩ := List.mem_map.mp hy
  exact pageOf_inj (hram.aligned page hpage) (hram.aligned page' hpage') (h.mem_table hpage).1
    (h.mem_table hpage').1 heq

/-- No more pages are free than the table has entries. -/
theorem Boots.ramPages_le {ranges : List UntypedRange} {t : UTTable} (hram : Ram ranges)
    (h : Boots ranges t) : (t.freeUntypeds pageBits4K).length ≤ t.untypeds.length := by
  rw [h.stocked.pages, List.length_map, List.length_reverse]
  have hsub : (ram (UTTable.pages ranges)).map (fun page => t.pageOf page.paddr) ⊆
      List.range t.untypeds.length := by
    intro index hindex
    obtain ⟨page, hpage, rfl⟩ := List.mem_map.mp hindex
    exact List.mem_range.mpr (h.mem_table hpage).2
  have hle := (List.subperm_of_subset (h.pageOf_nodup hram) hsub).length_le
  rwa [List.length_map, List.length_range] at hle

theorem length_of_boot {ranges : List UntypedRange} {t : UTTable}
    {firstPaddr entries nextFreeVaddr : Nat}
    (h : Prog.forEach addUntypedRange ranges (.new firstPaddr entries nextFreeVaddr) = .ok () t) :
    t.untypeds.length = entries := by
  have hkeep : ∀ page (t : UTTable), t.untypeds.length = entries →
      (addPage page).wp (fun _ t' => t'.untypeds.length = entries) (fun _ _ => False)
        (fun _ => True) t := by
    intro page t ht
    simp only [UTTable.addPage, paddrToUt, Prog.wp_bind, Prog.wp_gets, wp_subU, Prog.wp_pure,
      Prog.wp_unwrap, Prog.wp_modify]
    refine ⟨fun _ => ⟨fun _ _ => ?_, fun _ => trivial⟩, fun _ => trivial⟩
    show (t.untypeds.set _ _).length = entries
    rwa [List.length_set]
  have hloop : (Prog.forEach addUntypedRange ranges).wp (fun _ t' => t'.untypeds.length = entries)
      (fun _ _ => False) (fun _ => True) (.new firstPaddr entries nextFreeVaddr) := by
    refine Prog.wp_forEach (I := fun t : UTTable => t.untypeds.length = entries)
      List.length_replicate ?_
    intro range _ t ht
    exact Prog.wp_forEach (I := fun t : UTTable => t.untypeds.length = entries) ht
      fun page _ t ht => hkeep page t ht
  have hlen := Prog.wp_ok hloop h
  exact hlen

end UTTable

end Smos.RootServer
