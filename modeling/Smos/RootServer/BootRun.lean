/-
Smos.RootServer.BootRun — a whole run of bootstrap.

`structured` and `divided` are the states when the structures and the DMA
pool are placed, written with `place`. The programs reach them or have no
room: memory is never short, since what is stolen suffices, so a run that
fails has too few slots, cnodes or pages for the node blocks (`Enough`).
-/
import Smos.RootServer.BootPlan

namespace Smos.RootServer

open Smos.Base BootMem

variable {config : KernelConfig} {bi : BootInfo} {memory : Nat × Nat} {x y : UntypedDesc × Nat}

/-! ## Stealing -/

/-- Bootstrap's account after a theft. -/
def BootMem.take (m : BootMem) (i bits : Nat) : BootMem :=
  { m with availBytes := Function.update m.availBytes i (m.availBytes i - 2 ^ bits) }

theorem BootMem.take_carving (m : BootMem) (i bits : Nat) : (m.take i bits).carving = m.carving := rfl

theorem BootMem.Tidy.take {m : BootMem} (h : m.Tidy bi) (i bits : Nat) : (m.take i bits).Tidy bi :=
  ⟨h.sound, h.keys, h.fresh, h.regions⟩

theorem BootMem.Tidy.withUt {m : BootMem} (h : m.Tidy bi) (t : UTTable) :
    BootMem.Tidy bi { m with ut := t } := ⟨h.sound, h.keys, h.fresh, h.regions⟩

theorem stealUntyped_spec (m : BootMem) (bits : Nat) :
    (stealUntyped bi bits).wp
      (fun r m' => match findUntyped bi m.availBytes bits with
        | some x => r = some (x.2, paddrFromAvailBytes x.1 (m.availBytes x.2) bits) ∧
            m' = m.take x.2 bits
        | none => r = none ∧ m' = m)
      (fun _ _ => False) (fun _ => ¬ (pageBits4K ≤ bits ∧ bits ≤ maxUntypedBits)) m := by
  simp only [stealUntyped, Prog.wp_bind, Prog.wp_assert, Prog.wp_gets, decide_eq_true_eq,
    decide_eq_false_iff_not]
  refine ⟨fun hlo => ⟨fun hhi => ?_, fun hno h => hno h.2⟩, fun hno h => hno h.1⟩
  cases findUntyped bi m.availBytes bits with
  | none => exact ⟨rfl, rfl⟩
  | some x => exact ⟨rfl, rfl⟩

/-! ## The states -/

/-- The structures' untyped has been found. -/
def stolenFrom (bi : BootInfo) (memory : Nat × Nat) (i : Nat) : BootMem :=
  { BootMem.init with availBytes := initialAvailBytes bi.untypedList }.take i
    (bi.structureBits memory)

/-- The cnodes exist. -/
def withCnodes (bi : BootInfo) (memory : Nat × Nat) (i : Nat) : BootMem :=
  { ((stolenFrom bi memory i).place i initialTaskCnodeSizeBits (fun _ => .lvl1Cnode) 1).place i
      cnodeSizeBits (fun k => .cnode (0 + k)) (bi.nCnodes memory) with
    nCnodes := bi.nCnodes memory
    firstFreeSlot := bi.emptyStart }

/-- The structures are placed. -/
def structured (bi : BootInfo) (memory : Nat × Nat) (i : Nat) : BootMem :=
  (withCnodes bi memory i).placeSlots i (BootInfo.structurePages memory)

/-- The DMA pool is placed, and the table is empty. -/
def divided (bi : BootInfo) (memory : Nat × Nat) (i d : Nat) : BootMem :=
  { ((structured bi memory i).take d dmaReservationSizeBits).placeSlots d dmaReservationNumPages with
    ut := .new memory.1 (utPagesForRegion memory * (pageSize4K / utSize))
      (utTableVaddr + utPagesForRegion memory * pageSize4K) }

theorem lvl1_used (bi : BootInfo) (memory : Nat × Nat) (i : Nat) :
    ((stolenFrom bi memory i).place i initialTaskCnodeSizeBits
      (fun _ => .lvl1Cnode) 1).carving.used i = 2 ^ initialTaskCnodeSizeBits := by
  have hused : (stolenFrom bi memory i).carving.used i = 0 := rfl
  show (Carving.place _ i _ _ 1).used i = _
  rw [Carving.place_used_self, Carving.start, hused, alignUp_zero, Nat.zero_add, Nat.one_mul]

theorem cnodes_used (bi : BootInfo) (memory : Nat × Nat) (i : Nat) :
    (withCnodes bi memory i).carving.used i =
      2 ^ initialTaskCnodeSizeBits + bi.nCnodes memory * 2 ^ cnodeSizeBits := by
  have hlvl1 := lvl1_used bi memory i
  show (Carving.place _ i _ _ _).used i = _
  rw [Carving.place_used_self, Carving.start_of_dvd (by rw [hlvl1]; decide), hlvl1]

theorem cnodes_used_of_ne {i j : Nat} (h : j ≠ i) : (withCnodes bi memory i).carving.used j = 0 := by
  show (Carving.place (Carving.place _ i _ _ _) i _ _ _).used j = 0
  rw [Carving.place_used_of_ne h, Carving.place_used_of_ne h]
  rfl

theorem cnodes_used_dvd (i : Nat) : 2 ^ pageBits4K ∣ (withCnodes bi memory i).carving.used i := by
  rw [cnodes_used]
  have h18 : 2 ^ pageBits4K ∣ 2 ^ initialTaskCnodeSizeBits := by decide
  have h13 : 2 ^ pageBits4K ∣ 2 ^ cnodeSizeBits := by decide
  exact Nat.dvd_add h18 (Nat.dvd_mul_left_of_dvd h13 _)

theorem structured_used (i j : Nat) : (structured bi memory i).carving.used j =
    if j = i then bi.structuresMark memory else 0 := by
  by_cases hj : j = i
  · subst hj
    show (Carving.place _ j _ _ _).used j = _
    rw [if_pos rfl, Carving.place_used_self, Carving.start_of_dvd (cnodes_used_dvd j), cnodes_used]
    rfl
  · show (Carving.place _ i _ _ _).used j = _
    rw [if_neg hj, Carving.place_used_of_ne hj, cnodes_used_of_ne hj]

theorem structured_used_dvd (i j : Nat) :
    2 ^ pageBits4K ∣ (structured bi memory i).carving.used j := by
  rw [structured_used]
  split
  · exact bi.page_dvd_mark memory
  · exact Nat.dvd_zero _

theorem divided_used (i d j : Nat) :
    (divided bi memory i d).carving.used j = bi.placed memory i d j := by
  show (Carving.place (structured bi memory i).carving d _ _ _).used j = _
  unfold BootInfo.placed
  by_cases hj : j = d
  · subst hj
    rw [Carving.place_used_self, Carving.start_of_dvd (structured_used_dvd i j), structured_used,
      if_pos (rfl : j = j), dmaReservation_size]
  · rw [Carving.place_used_of_ne hj, structured_used, if_neg hj, Nat.add_zero]

theorem structured_avail (i : Nat) :
    (structured bi memory i).availBytes = bi.availAfter memory i := rfl

theorem divided_avail (i d : Nat) :
    (divided bi memory i d).availBytes = bi.availLeft memory i d := rfl

theorem divided_dma {i d k : Nat} (hk : k < dmaReservationNumPages) :
    ⟨.slot (bi.emptyStart + BootInfo.structurePages memory + k), d,
      (structured bi memory i).carving.used d + k * 2 ^ pageBits4K, pageBits4K⟩ ∈
        (divided bi memory i d).carving.objects := by
  refine Carving.mem_place.mpr (.inr ⟨k, hk, ?_⟩)
  rw [take_carving, Carving.start_of_dvd (structured_used_dvd i d)]
  rfl

theorem divided_cnode {i d k : Nat} (hk : k < bi.nCnodes memory) :
    ∃ o ∈ (divided bi memory i d).carving.objects, o.key = .cnode k := by
  have hplaced : ⟨.cnode (0 + k), i, _, cnodeSizeBits⟩ ∈ (withCnodes bi memory i).carving.objects :=
    Carving.mem_place.mpr (.inr ⟨k, hk, rfl⟩)
  have hkept : ∀ o ∈ (withCnodes bi memory i).carving.objects,
      o ∈ (divided bi memory i d).carving.objects :=
    fun o ho => Carving.mem_place.mpr (.inl (Carving.mem_place.mpr (.inl ho)))
  exact ⟨_, hkept _ hplaced, congrArg BootCap.cnode (Nat.zero_add k)⟩

/-! ## The structures -/

section Structures

variable (hx : findUntyped bi (initialAvailBytes bi.untypedList) (bi.structureBits memory) = some x)

include hx

/-- The structures fit into what is stolen. -/
theorem mark_le : bi.structuresMark memory + nDmaPts * 2 ^ pageBits4K ≤ 2 ^ bi.sizeOf x.2 := by
  rw [bi.sizeOf_eq (findUntyped_some hx).1]
  exact Nat.le_trans (Nat.le_of_lt (bi.structuresMark_lt memory)) (structures_size hx)

theorem lvl1_fits : (stolenFrom bi memory x.2).carving.Fits bi.sizeOf x.2
    initialTaskCnodeSizeBits 1 := by
  have hle := mark_le hx
  have hmark := bi.cnode_le_mark memory
  have hused : (stolenFrom bi memory x.2).carving.used x.2 = 0 := rfl
  rw [Carving.Fits, Carving.start, hused, alignUp_zero, Nat.zero_add, Nat.one_mul]
  exact Nat.le_trans (Nat.le_trans hmark (Nat.le_add_right _ _)) hle

theorem cnodes_fit : ((stolenFrom bi memory x.2).place x.2 initialTaskCnodeSizeBits
    (fun _ => .lvl1Cnode) 1).carving.Fits bi.sizeOf x.2 cnodeSizeBits (bi.nCnodes memory) := by
  have hle := mark_le hx
  have hused := cnodes_used bi memory x.2
  have hplace : (withCnodes bi memory x.2).carving.used x.2 ≤ bi.structuresMark memory := by
    rw [hused]
    exact Nat.le_add_right _ _
  change (Carving.place _ x.2 _ _ _).used x.2 ≤ _ at hplace
  rw [Carving.place_used_self] at hplace
  unfold Carving.Fits
  omega

theorem withCnodes_sound : (withCnodes bi memory x.2).carving.Sound bi.sizeOf := by
  have hempty : (stolenFrom bi memory x.2).carving.Sound bi.sizeOf := Carving.sound_empty _
  have hlvl1 : ((stolenFrom bi memory x.2).place x.2 initialTaskCnodeSizeBits
      (fun _ => .lvl1Cnode) 1).carving.Sound bi.sizeOf := hempty.place (lvl1_fits hx)
  exact hlvl1.place (cnodes_fit hx)

theorem withCnodes_tidy : (withCnodes bi memory x.2).Tidy bi where
  sound := withCnodes_sound hx
  keys := by
    show ((Carving.place (Carving.place _ _ _ _ 1) _ _ _ _).objects.map Carved.key).Nodup
    rw [Carving.place_keys, Carving.place_keys]
    show ([BootCap.lvl1Cnode] ++ _).Nodup
    have hcnodes : ((List.range (bi.nCnodes memory)).map fun k => BootCap.cnode (0 + k)).Nodup := by
      refine List.Nodup.map ?_ List.nodup_range
      intro a b hab
      simpa using hab
    simpa using hcnodes
  fresh o ho c hc := by
    obtain ho | ⟨k, -, rfl⟩ := Carving.mem_place.mp ho
    · obtain ho | ⟨k, -, rfl⟩ := Carving.mem_place.mp ho
      · cases ho
      · cases hc
    · cases hc
  regions o ho := by
    have hlt := BootInfo.snd_lt (findUntyped_some hx).1
    obtain ho | ⟨k, -, rfl⟩ := Carving.mem_place.mp ho
    · obtain ho | ⟨k, -, rfl⟩ := Carving.mem_place.mp ho
      · cases ho
      · exact hlt
    · exact hlt

theorem structures_fit : (withCnodes bi memory x.2).carving.Fits bi.sizeOf x.2 pageBits4K
    (BootInfo.structurePages memory) := by
  have hle := mark_le hx
  rw [Carving.Fits, Carving.start_of_dvd (cnodes_used_dvd x.2), cnodes_used]
  exact Nat.le_trans (Nat.le_add_right _ _) hle

end Structures

/-- There are slots and cnodes for the structures. -/
structure EnoughStructures (bi : BootInfo) (memory : Nat × Nat) : Prop where
  empty : 2 ≤ bi.emptyEnd - bi.emptyStart
  start : 1 ≤ bi.emptyStart
  bits : bi.structureBits memory ≤ maxUntypedBits
  cnodes : bi.nCnodes memory ≤ initialTaskCnodeSlots
  slots : bi.emptyStart + BootInfo.structurePages memory ≤ bi.nCnodes memory * cnodeSlots

theorem EnoughStructures.room
    (hx : findUntyped bi (initialAvailBytes bi.untypedList) (bi.structureBits memory) = some x)
    (h : EnoughStructures bi memory) : (withCnodes bi memory x.2).Room bi x.2 pageBits4K
      (withCnodes bi memory x.2).slotKey (BootInfo.structurePages memory) where
  reachable k hk := (Nat.div_lt_iff_lt_mul (by decide)).mpr
    (Nat.lt_of_lt_of_le (Nat.add_lt_add_left hk _) h.slots)
  fits := structures_fit hx

theorem bootStructures_spec (hb : findMemoryBounds bi.untypedList = some memory)
    (hx : findUntyped bi (initialAvailBytes bi.untypedList) (bi.structureBits memory) = some x) :
    (bootStructures config bi).wp
      (fun r m => r = (memory, x.2) ∧ (withCnodes bi memory x.2).Room bi x.2 pageBits4K
          (withCnodes bi memory x.2).slotKey (BootInfo.structurePages memory) ∧
        m = structured bi memory x.2)
      (fun _ _ => ¬ EnoughStructures bi memory) (fun _ => ¬ EnoughStructures bi memory) .init := by
  have hlvl1 : (stolenFrom bi memory x.2).Room bi x.2 initialTaskCnodeSizeBits
      (fun _ => .lvl1Cnode) 1 := ⟨fun _ _ => trivial, lvl1_fits hx⟩
  have hempty : ¬ 2 ≤ bi.emptyEnd - bi.emptyStart → ¬ EnoughStructures bi memory :=
    fun hno h => hno h.empty
  unfold bootStructures
  rw [Prog.wp_bind, wp_subU]
  refine ⟨fun hle => ?_, fun hno => hempty fun h => hno (Nat.le_of_lt (Nat.lt_of_sub_pos
    (Nat.lt_of_lt_of_le (by decide : 0 < 2) h)))⟩
  rw [Prog.wp_bind, Prog.wp_assert, decide_eq_true_eq, decide_eq_false_iff_not]
  refine ⟨fun hslots => ?_, hempty⟩
  rw [Prog.wp_bind, wp_subU]
  refine ⟨fun hstart => ?_, fun hno h => hno h.start⟩
  rw [hb, Prog.wp_bind, Prog.wp_unwrap]
  refine ⟨fun memory' hmem => ?_, fun hno => by cases hno⟩
  cases hmem
  rw [Prog.wp_bind, Prog.wp_modify, Prog.wp_bind]
  have hbits : pageBits4K ≤ bi.structureBits memory :=
    Nat.le_trans (by decide) (bi.le_structureBits memory)
  refine Prog.wp_mono (stealUntyped_spec _ _) ?_ (fun _ _ h => h.elim)
    (fun _ hno h => hno ⟨hbits, h.bits⟩)
  intro r m hr
  rw [show findUntyped bi _ _ = some x from hx] at hr
  obtain ⟨rfl, rfl⟩ := hr
  rw [Prog.wp_bind, Prog.wp_unwrap]
  refine ⟨fun r hr => ?_, fun hno => by cases hno⟩
  cases hr
  show Prog.wp _ _ _ _ (stolenFrom bi memory x.2)
  -- the cnodes
  rw [Prog.wp_bind, Prog.wp_expect]
  refine Prog.wp_mono bootRetype_places ?_ (fun _ _ hno => absurd hlvl1 hno) (fun _ h => h.elim)
  rintro _ m ⟨-, rfl⟩
  have hused : ((stolenFrom bi memory x.2).place x.2 initialTaskCnodeSizeBits
      (fun _ => .lvl1Cnode) 1).carving.used x.2 = 2 ^ initialTaskCnodeSizeBits := lvl1_used _ _ _
  have hle₁ : 2 ^ initialTaskCnodeSizeBits ≤ 2 ^ bi.sizeOf x.2 :=
    Nat.le_trans (bi.cnode_le_mark memory) (Nat.le_trans (Nat.le_add_right _ _) (mark_le hx))
  rw [Prog.wp_bind]
  refine Prog.wp_mono (retypeCnodes_places 0 _ ?_ ?_ (Nat.zero_add _)) ?_ ?_
    (fun _ h => h.elim)
  · exact hused ▸ hle₁
  · rw [hused]
    decide
  · rintro _ m ⟨-, rfl⟩
    rw [Prog.wp_bind, Prog.wp_modify]
    show Prog.wp _ _ _ _ (withCnodes bi memory x.2)
    -- the pages
    have hroom : EnoughStructures bi memory → ∀ n ≤ BootInfo.structurePages memory,
        (withCnodes bi memory x.2).Room bi x.2 pageBits4K (withCnodes bi memory x.2).slotKey n :=
      fun h n hn => (h.room hx).mono hn
    have herr : ∀ n ≤ BootInfo.structurePages memory, ¬ (withCnodes bi memory x.2).Room bi x.2
        pageBits4K (withCnodes bi memory x.2).slotKey n → ¬ EnoughStructures bi memory :=
      fun n hn hno h => hno (hroom h n hn)
    have hzero := placeSlots_zero (m := withCnodes bi memory x.2) (cnodes_used_dvd x.2)
    unfold BootInfo.structurePages at herr
    refine (congrArg (Prog.wp _ _ _ _) hzero).mp ?_
    refine wp_retypeSlots (room_zero ((withCnodes_sound hx).used_le _) (cnodes_used_dvd _))
      (fun h₁ => ?_) fun hno _ _ => herr _ (by omega) hno
    refine wp_retypeSlots h₁ (fun h₂ => ?_) fun hno _ _ => herr _ (by omega) hno
    refine wp_retypeSlots h₂ (fun h₃ => ?_) fun hno _ _ => herr _ (by omega) hno
    refine wp_retypeSlots h₃ (fun h₄ => ?_) fun hno _ _ => herr _ (by omega) hno
    rw [Nat.zero_add] at h₄ ⊢
    exact ⟨rfl, h₄, rfl⟩
  · intro _ _ hno h
    refine hno ⟨fun k hk => ?_, cnodes_fit hx⟩
    show 0 + k < initialTaskCnodeSlots
    have := h.cnodes
    omega

/-! ## The DMA pool and the table -/

theorem bytesTo4kPages_le (b : Nat) : b ≤ bytesTo4kPages b * pageSize4K := by
  have hdiv := Nat.div_add_mod b pageSize4K
  have hmod := Nat.mod_lt b (show 0 < pageSize4K by decide)
  unfold bytesTo4kPages
  unfold pageSize4K at *
  split
  · omega
  · omega

/-- The table has an entry for every page of the memory. -/
theorem entries_le (memory : Nat × Nat) :
    (memory.2 - memory.1) / pageSize4K ≤ utPagesForRegion memory * (pageSize4K / utSize) := by
  have hle := bytesTo4kPages_le ((memory.2 - memory.1) / pageSize4K * utSize)
  change _ ≤ utPagesForRegion memory * pageSize4K at hle
  unfold pageSize4K utSize at *
  omega

section Divided

variable (h : Stolen bi memory x y)

include h

theorem dma_fits : (structured bi memory x.2).carving.Fits bi.sizeOf y.2 pageBits4K
    dmaReservationNumPages := by
  have hin := (findUntyped_some h.dma).2.1
  have hsum := h.avail_taken h.y_mem hin h.y_ram
  have hle : bi.placed memory x.2 y.2 y.2 ≤ 2 ^ bi.sizeOf y.2 := by
    rw [bi.sizeOf_eq h.y_mem, ← hsum]
    exact Nat.le_trans (Stolen.placed_le_taken ..) (Nat.le_add_left _ _)
  rw [Carving.Fits, Carving.start_of_dvd (structured_used_dvd _ _), structured_used,
    dmaReservation_size]
  rw [BootInfo.placed, if_pos (rfl : y.2 = y.2)] at hle
  exact hle

theorem divided_fillable : Fillable bi (divided bi memory x.2 y.2) where
  aligned i := by
    rw [divided_used]
    exact Stolen.page_dvd_placed ..
  fits z hz := by
    rw [divided_used, divided_avail, bi.sizeOf_eq hz]
    by_cases hin : untypedInRange z.1 = true
    · exact Nat.le_trans (Nat.add_le_add_right (Stolen.placed_le_taken ..) _)
        (h.taken_caps_le hz hin)
    · have hzx : z.2 ≠ x.2 := by
        intro heq
        exact hin (BootInfo.eq_of_snd hz h.x_mem heq ▸ (findUntyped_some h.structures).2.1)
      have hzy : z.2 ≠ y.2 := by
        intro heq
        exact hin (BootInfo.eq_of_snd hz h.y_mem heq ▸ (findUntyped_some h.dma).2.1)
      simp [capsOf, hin, BootInfo.placed, hzx, hzy]
  table z hz k hk := by
    rw [divided_avail] at hk ⊢
    have hin : untypedInRange z.1 = true := by
      by_contra hin
      rw [capsOf, if_neg hin] at hk
      cases hk
    have hfit := h.taken_caps_le hz hin
    obtain ⟨hlo, hhi⟩ := findMemoryBounds_covers h.bounds
      (List.mem_of_getElem? (BootInfo.mem_zipIdx.mp hz)) hin
    have hentries := entries_le memory
    have hmul : (k + 1) * 2 ^ pageBits4K ≤
        capsOf (bi.availLeft memory x.2 y.2) z * 2 ^ pageBits4K := Nat.mul_le_mul_right _ hk
    dsimp only
    rw [h.paddr_eq hz hin]
    refine ⟨Nat.le_trans hlo (by omega), ?_⟩
    show (_ - memory.1) / pageSize4K < (List.replicate _ _).length
    rw [List.length_replicate]
    refine Nat.lt_of_lt_of_le ?_ hentries
    unfold pageSize4K pageBits4K at *
    omega

theorem divided_tidy (hroom : ((structured bi memory x.2).take y.2 dmaReservationSizeBits).Room bi
      y.2 pageBits4K ((structured bi memory x.2).take y.2 dmaReservationSizeBits).slotKey
      dmaReservationNumPages)
    (hpages : (withCnodes bi memory x.2).Room bi x.2 pageBits4K
      (withCnodes bi memory x.2).slotKey (BootInfo.structurePages memory)) :
    (divided bi memory x.2 y.2).Tidy bi :=
  ((((withCnodes_tidy h.structures).placeSlots (BootInfo.snd_lt h.x_mem) hpages).take _ _).placeSlots
    (BootInfo.snd_lt h.y_mem) hroom).withUt _

end Divided

/-- The first free slot when the table is filled. -/
def BootInfo.lastSlot (bi : BootInfo) (memory : Nat × Nat) (i d : Nat) : Slot :=
  bi.emptyStart + BootInfo.structurePages memory + dmaReservationNumPages +
    totalCaps (bi.availLeft memory i d) bi.untypedList.zipIdx

/-- The first free slot in the end: behind the node blocks and the page tables of the DMA region. -/
def BootInfo.slotsUsed (bi : BootInfo) (memory : Nat × Nat) (i d : Nat) : Nat :=
  bi.lastSlot memory i d + (nBotLvl (bi.lastSlot memory i d) (bi.nCnodes memory) + nDmaPts)

/-- How many slots are used, and the cnodes that there are for them. -/
structure SlotsFilled (bi : BootInfo) (memory : Nat × Nat) (x y : UntypedDesc × Nat)
    (m : BootMem) : Prop where
  nCnodes : m.nCnodes = bi.nCnodes memory
  first : m.firstFreeSlot = bi.slotsUsed memory x.2 y.2
  cnodes : ∀ k < bi.nCnodes memory, ∃ o ∈ m.carving.objects, o.key = .cnode k

/-- There are slots for everything, and pages for the node blocks. -/
structure Enough (bi : BootInfo) (memory : Nat × Nat) (x y : UntypedDesc × Nat) : Prop where
  structures : EnoughStructures bi memory
  slots : bi.lastSlot memory x.2 y.2 +
      (nBotLvl (bi.lastSlot memory x.2 y.2) (bi.nCnodes memory) + nDmaPts) ≤
    bi.nCnodes memory * cnodeSlots
  pages : nBotLvl (bi.lastSlot memory x.2 y.2) (bi.nCnodes memory) ≤
    ramCaps (bi.availLeft memory x.2 y.2) bi.untypedList.zipIdx

/-- What bootstrap leaves: the DMA pool, and the ranges of the table. -/
structure BootResult (bi : BootInfo) (memory : Nat × Nat) (x y : UntypedDesc × Nat)
    (ranges : List UntypedRange) (pool : DmaPool) (m : BootMem) : Prop where
  stolen : Stolen bi memory x y
  tidy : m.Tidy bi
  pstart : pool.pstart =
    paddrFromAvailBytes y.1 (bi.availAfter memory x.2 y.2) dmaReservationSizeBits
  pages : pool.pages = (List.range dmaReservationNumPages).map fun k =>
    (bi.emptyStart + BootInfo.structurePages memory) + k
  dma : ∀ k < dmaReservationNumPages,
    ⟨.slot (bi.emptyStart + BootInfo.structurePages memory + k), y.2,
      (structured bi memory x.2).carving.used y.2 + k * 2 ^ pageBits4K, pageBits4K⟩ ∈
        m.carving.objects
  firstPaddr : m.ut.firstPaddr = memory.1
  boots : ∃ t, UTTable.Boots ranges t ∧ m.ut.untypeds = t.untypeds ∧
    t.firstPaddr = memory.1 ∧ t.freeUntypeds pageBits4K ≠ []
  recorded : ∀ range ∈ ranges, ∃ z ∈ bi.untypedList.zipIdx,
    Recorded (divided bi memory x.2 y.2) m z range
  done : ∀ z ∈ bi.untypedList.zipIdx, 0 < capsOf (bi.availLeft memory x.2 y.2) z →
    ∃ range ∈ ranges, Recorded (divided bi memory x.2 y.2) m z range

theorem Enough.last_le (h : Enough bi memory x y) :
    bi.lastSlot memory x.2 y.2 ≤ bi.nCnodes memory * cnodeSlots :=
  Nat.le_trans (Nat.le_add_right _ _) h.slots

theorem Enough.enoughSlots (h : Enough bi memory x y) :
    EnoughSlots bi (divided bi memory x.2 y.2) := h.last_le

theorem Enough.dmaRoom (h : Enough bi memory x y) (hs : Stolen bi memory x y) :
    ((structured bi memory x.2).take y.2 dmaReservationSizeBits).Room bi y.2 pageBits4K
      ((structured bi memory x.2).take y.2 dmaReservationSizeBits).slotKey
      dmaReservationNumPages where
  reachable k hk := by
    refine (Nat.div_lt_iff_lt_mul (by decide)).mpr (Nat.lt_of_lt_of_le ?_ h.last_le)
    exact Nat.lt_of_lt_of_le (Nat.add_lt_add_left hk _) (Nat.le_add_right _ _)
  fits := by
    rw [take_carving]
    exact dma_fits hs

/-- The program after the table is filled. -/
theorem bootEnd_spec {m₁ : BootMem} {ranges : List UntypedRange} (h : Stolen bi memory x y)
    (hfill : Filling bi (divided bi memory x.2 y.2) [] ranges m₁) :
    Prog.wp (do
      let first ← Prog.gets BootMem.firstFreeSlot
      Prog.forEach (fun _ => addBotLvlNode) (List.range (nBotLvl first (bi.nCnodes memory)))
      retypeSlots bi x.2 nDmaPts
      Prog.modify fun m =>
        let nextFreeVaddr :=
          dmaVaddr m.ut.nextFreeVaddr + (dmaReservationNumPages + 1) * pageSize4K
        { m with ut := { m.ut with nextFreeVaddr := nextFreeVaddr } }
      pure
        { pstart := paddrFromAvailBytes y.1 (bi.availAfter memory x.2 y.2) dmaReservationSizeBits
          pages := (List.range dmaReservationNumPages).map fun k =>
            (bi.emptyStart + BootInfo.structurePages memory) + k
          allocations := [] })
      (fun pool m => (∃ ranges, BootResult bi memory x y ranges pool m) ∧
        SlotsFilled bi memory x y m)
      (fun _ _ => ¬ Enough bi memory x y) (fun _ => ¬ Enough bi memory x y) m₁ := by
  have hfirst : m₁.firstFreeSlot = bi.lastSlot memory x.2 y.2 := hfill.slots
  have hfree : (m₁.ut.freeUntypeds pageBits4K).length =
      ramCaps (bi.availLeft memory x.2 y.2) bi.untypedList.zipIdx :=
    hfill.free.trans (Nat.zero_add _)
  rw [Prog.wp_bind, Prog.wp_gets, hfirst, Prog.wp_bind]
  -- the node blocks
  refine Prog.wp_mono (addBotLvlNodes_noded _) ?_ ?_ (fun _ h => h.elim)
  · intro _ m₂ hnoded
    have hkeep : ∀ o ∈ m₁.carving.objects,
        o ∈ (m₂.placeSlots x.2 nDmaPts).carving.objects := by
      intro o ho
      rw [← hnoded.carving] at ho
      exact Carving.mem_place.mpr (.inl ho)
    have htidy := hnoded.tidy hfill.tidy
    have hdvd : 2 ^ pageBits4K ∣ m₂.carving.used x.2 := hnoded.carving ▸ hfill.aligned x.2
    have hplaces := retypeSlots_places (n := nDmaPts) (htidy.sound.used_le x.2) hdvd
    rw [Prog.wp_bind]
    refine Prog.wp_mono hplaces ?_ ?_ (fun _ h => h.elim)
    · rintro _ m₃ ⟨hroom, rfl⟩
      rw [Prog.wp_bind, Prog.wp_modify, Prog.wp_pure]
      have hfilled : SlotsFilled bi memory x y (m₂.placeSlots x.2 nDmaPts) := by
        refine ⟨hnoded.nCnodes.trans hfill.nCnodes, ?_, fun k hk => ?_⟩
        · show m₂.firstFreeSlot + nDmaPts = _
          rw [hnoded.slots, hfirst, Nat.add_assoc]
          rfl
        · obtain ⟨o, ho, hkey⟩ := divided_cnode hk
          exact ⟨o, hkeep o (hfill.keeps o ho), hkey⟩
      refine ⟨?_, hfilled.nCnodes, hfilled.first, hfilled.cnodes⟩
      refine ⟨ranges, h, (htidy.placeSlots (BootInfo.snd_lt h.x_mem) hroom).withUt _, rfl, rfl, ?_,
        hnoded.firstPaddr.trans hfill.firstPaddr, ?_, ?_, ?_⟩
      · intro k hk
        refine hkeep _ (hfill.keeps _ (divided_dma hk))
      · refine ⟨m₁.ut, ⟨_, _, _, hfill.boots⟩, hnoded.untypeds, hfill.firstPaddr, ?_⟩
        intro hnil
        have hsome := hnoded.some
        rw [hnil] at hsome
        exact absurd hsome (Nat.not_succ_le_zero _)
      · intro range hr
        obtain ⟨z, hz, hrec⟩ := hfill.recorded range hr
        exact ⟨z, hz, hrec.mono hkeep⟩
      · intro z hz hpos
        obtain ⟨range, hr, hrec⟩ := hfill.done z hz (List.not_mem_nil) hpos
        exact ⟨range, hr, hrec.mono hkeep⟩
    · -- the page tables of the DMA region
      intro _ _ hno henough
      refine hno ⟨fun k hk => ?_, ?_⟩
      · refine (Nat.div_lt_iff_lt_mul (by decide)).mpr ?_
        rw [hnoded.slots, hnoded.nCnodes, hfirst, hfill.nCnodes]
        refine Nat.lt_of_lt_of_le ?_ henough.slots
        rw [Nat.add_assoc]
        exact Nat.add_lt_add_left (Nat.add_lt_add_left hk _) _
      · rw [Carving.Fits, Carving.start_of_dvd hdvd, hnoded.carving,
          hfill.marks x h.x_mem List.not_mem_nil, divided_used, divided_avail,
          bi.sizeOf_eq h.x_mem]
        have hcaps := h.taken_caps_le h.x_mem (findUntyped_some h.structures).2.1
        have hmark := bi.structuresMark_lt memory
        unfold BootInfo.taken at hcaps
        unfold BootInfo.placed
        rw [if_pos (rfl : x.2 = x.2)] at hcaps ⊢
        omega
  · intro _ _ hno henough
    refine hno ⟨?_, ?_⟩
    · rw [hfree]
      exact henough.pages
    · rw [hfirst, hfill.nCnodes]
      refine Nat.le_trans ?_ henough.slots
      exact Nat.add_le_add_left (Nat.le_add_right _ _) _

theorem smosBootstrap_spec (h : Stolen bi memory x y) :
    (smosBootstrap config bi).wp
      (fun pool m => (∃ ranges, BootResult bi memory x y ranges pool m) ∧
        SlotsFilled bi memory x y m)
      (fun _ _ => ¬ Enough bi memory x y) (fun _ => ¬ Enough bi memory x y) .init := by
  unfold smosBootstrap
  rw [Prog.wp_bind]
  refine Prog.wp_mono (bootStructures_spec h.bounds h.structures) ?_
    (fun _ _ hno henough => hno henough.structures) (fun _ hno henough => hno henough.structures)
  rintro r m ⟨rfl, hpages, rfl⟩
  -- the DMA pool
  rw [Prog.wp_bind]
  refine Prog.wp_mono (stealUntyped_spec _ _) ?_ (fun _ _ h => h.elim)
    (fun _ hno => absurd (by decide) hno)
  intro r m hr
  rw [structured_avail, h.dma] at hr
  obtain ⟨rfl, rfl⟩ := hr
  rw [Prog.wp_bind, Prog.wp_okOr]
  refine ⟨fun r hr => ?_, fun hno => by cases hno⟩
  cases hr
  rw [Prog.wp_bind, Prog.wp_gets, Prog.wp_bind]
  have hdvd : 2 ^ pageBits4K ∣
      ((structured bi memory x.2).take y.2 dmaReservationSizeBits).carving.used y.2 := by
    rw [take_carving]
    exact structured_used_dvd x.2 y.2
  have hstructured : (structured bi memory x.2).Tidy bi :=
    (withCnodes_tidy h.structures).placeSlots (BootInfo.snd_lt h.x_mem) hpages
  have hle : ((structured bi memory x.2).take y.2 dmaReservationSizeBits).carving.used y.2 ≤
      2 ^ bi.sizeOf y.2 := by
    rw [take_carving]
    exact hstructured.sound.used_le y.2
  have hplaces := retypeSlots_places (n := dmaReservationNumPages) hle hdvd
  refine Prog.wp_mono hplaces ?_ ?_ (fun _ h => h.elim)
  · rintro _ m ⟨hroom, rfl⟩
    have htidy := divided_tidy h hroom hpages
    rw [Prog.wp_bind, Prog.wp_modify]
    show Prog.wp _ _ _ _ (divided bi memory x.2 y.2)
    -- the table
    rw [Prog.wp_bind]
    refine Prog.wp_mono (addUntypeds_filling htidy (divided_fillable h)) ?_ ?_ (fun _ h => h.elim)
    · rintro _ m ⟨ranges, hfill⟩
      exact bootEnd_spec h hfill
    · intro _ _ hno henough
      exact hno (henough.enoughSlots)
  · intro _ _ hno henough
    exact hno (henough.dmaRoom h)

end Smos.RootServer
