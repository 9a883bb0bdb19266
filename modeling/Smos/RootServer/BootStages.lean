/-
Smos.RootServer.BootStages — what the stages of bootstrap place.

Every stage is a loop of retypes that asks for one run of objects in
pieces: the cnodes as many as the kernel makes at a time, the pages one by
one, the 4K untypeds as many as fit into a cnode. Whatever the pieces, a
stage that returns has placed the run as one request would (`place`), and
one that does not return had no room for it (`Room`).

`Tidy` is what every stage keeps: the objects lie apart, and each has a
capability of its own.
-/
import Smos.RootServer.BootMemory

namespace Smos.RootServer

open Smos.Base

namespace BootMem

variable {config : KernelConfig} {bi : BootInfo} {m : BootMem} {i bits n : Nat}
  {key : Nat → BootCap}

def place (m : BootMem) (i bits : Nat) (key : Nat → BootCap) (n : Nat) : BootMem :=
  { m with carving := m.carving.place i bits key n }

/-- The capabilities of the free slots, in order. -/
def slotKey (m : BootMem) (k : Nat) : BootCap := .slot (m.firstFreeSlot + k)

def placeSlots (m : BootMem) (i n : Nat) : BootMem :=
  { m.place i pageBits4K m.slotKey n with firstFreeSlot := m.firstFreeSlot + n }

/-- There is memory for the objects, and their capabilities can be stored. -/
structure Room (bi : BootInfo) (m : BootMem) (i bits : Nat) (key : Nat → BootCap) (n : Nat) :
    Prop where
  reachable : ∀ k < n, (key k).Reachable m.nCnodes
  fits : m.carving.Fits bi.sizeOf i bits n

theorem Room.mono {n' : Nat} (h : m.Room bi i bits key n) (hle : n' ≤ n) :
    m.Room bi i bits key n' where
  reachable k hk := h.reachable k (Nat.lt_of_lt_of_le hk hle)
  fits := h.fits.mono hle

theorem room_add (a b : Nat) (h : m.Room bi i bits key a) :
    (m.place i bits key a).Room bi i bits (fun k => key (a + k)) b ↔
      m.Room bi i bits key (a + b) := by
  constructor
  · intro h'
    refine ⟨fun k hk => ?_, (Carving.fits_add a b).mp h'.fits⟩
    by_cases hka : k < a
    · exact h.reachable k hka
    · have hrest := h'.reachable (k - a) (by omega)
      rwa [Nat.add_sub_cancel' (Nat.le_of_not_lt hka)] at hrest
  · intro h'
    exact ⟨fun k hk => h'.reachable (a + k) (by omega), (Carving.fits_add a b).mpr h'.fits⟩

theorem place_add (a b : Nat) : (m.place i bits key a).place i bits (fun k => key (a + k)) b =
    m.place i bits key (a + b) := by
  unfold place
  rw [Carving.place_add]

theorem place_zero (h : 2 ^ bits ∣ m.carving.used i) : m.place i bits key 0 = m := by
  unfold place
  rw [Carving.place_zero h]

theorem slotKey_add (a : Nat) : (m.placeSlots i a).slotKey = fun k => m.slotKey (a + k) := by
  funext k
  simp [slotKey, placeSlots, Nat.add_assoc]

theorem placeSlots_add (a b : Nat) : (m.placeSlots i a).placeSlots i b = m.placeSlots i (a + b) := by
  have hplace : (m.place i pageBits4K m.slotKey a).place i pageBits4K
      (fun k => m.slotKey (a + k)) b = m.place i pageBits4K m.slotKey (a + b) := place_add a b
  rw [placeSlots, slotKey_add]
  unfold placeSlots
  rw [← hplace, ← Nat.add_assoc]
  rfl

theorem placeSlots_zero (h : 2 ^ pageBits4K ∣ m.carving.used i) : m.placeSlots i 0 = m := by
  rw [placeSlots, place_zero h]
  rfl

theorem slotRoom_add (a b : Nat) (h : m.Room bi i pageBits4K m.slotKey a) :
    (m.placeSlots i a).Room bi i pageBits4K (m.placeSlots i a).slotKey b ↔
      m.Room bi i pageBits4K m.slotKey (a + b) := by
  rw [← room_add a b h, slotKey_add]
  exact ⟨fun h => ⟨h.reachable, h.fits⟩, fun h => ⟨h.reachable, h.fits⟩⟩

theorem room_zero (hle : m.carving.used i ≤ 2 ^ bi.sizeOf i) (hd : 2 ^ bits ∣ m.carving.used i) :
    m.Room bi i bits key 0 where
  reachable k hk := absurd hk (Nat.not_lt_zero k)
  fits := by
    rw [Carving.Fits, Carving.start_of_dvd hd, Nat.zero_mul]
    exact hle

/-! ## The loops -/

/-- The program places the run, or there is no room for it. -/
abbrev Places (bi : BootInfo) (p : BootMemProg Unit) (m : BootMem) (i bits : Nat)
    (key : Nat → BootCap) (n : Nat) (m' : BootMem) : Prop :=
  p.wp (fun _ m'' => m.Room bi i bits key n ∧ m'' = m')
    (fun _ _ => ¬ m.Room bi i bits key n) (fun _ => False) m

theorem bootRetype_places : Places bi (bootRetype bi i bits key n) m i bits key n
    (m.place i bits key n) := by
  unfold Places bootRetype
  simp only [Prog.wp_bind, Prog.wp_get, Prog.wp_ite, Prog.wp_modify, Prog.wp_fail]
  exact ⟨fun hreach => ⟨fun hfits => ⟨⟨hreach, hfits⟩, rfl⟩, fun hfits h => hfits h.fits⟩,
    fun hreach h => hreach h.reachable⟩

theorem retypeSlots_places (hle : m.carving.used i ≤ 2 ^ bi.sizeOf i)
    (hd : 2 ^ pageBits4K ∣ m.carving.used i) :
    Places bi (retypeSlots bi i n) m i pageBits4K m.slotKey n (m.placeSlots i n) := by
  unfold Places retypeSlots
  refine Prog.wp_forEach_range
    (I := fun k m' => m.Room bi i pageBits4K m.slotKey k ∧ m' = m.placeSlots i k)
    ⟨room_zero hle hd, (placeSlots_zero hd).symm⟩ ?_
  rintro k hk m' ⟨hroom, rfl⟩
  simp only [Prog.wp_bind, Prog.wp_gets, Prog.wp_modify]
  refine Prog.wp_mono bootRetype_places ?_ ?_ (fun _ h => h)
  · rintro _ m'' ⟨hone, rfl⟩
    refine ⟨(slotRoom_add k 1 hroom).mp hone, ?_⟩
    rw [← placeSlots_add]
    rfl
  · intro _ _ hone h
    exact hone ((slotRoom_add k 1 hroom).mpr (h.mono hk))

/-- Pages that follow `a` others. -/
theorem wp_retypeSlots {α : Type} {a : Nat} {rest : BootMemProg α} {Q : α → BootMem → Prop}
    {E : Sel4Error → BootMem → Prop} {P : Panic → Prop}
    (hroom : m.Room bi i pageBits4K m.slotKey a)
    (hok : m.Room bi i pageBits4K m.slotKey (a + n) → rest.wp Q E P (m.placeSlots i (a + n)))
    (herr : ¬ m.Room bi i pageBits4K m.slotKey (a + n) → ∀ e m', E e m') :
    (retypeSlots bi i n >>= fun _ => rest).wp Q E P (m.placeSlots i a) := by
  have hused : (m.placeSlots i a).carving.used i = m.carving.start i pageBits4K +
      a * 2 ^ pageBits4K := Carving.place_used_self
  have hd' : 2 ^ pageBits4K ∣ (m.placeSlots i a).carving.used i := Carving.dvd_place_used ..
  rw [Prog.wp_bind]
  refine Prog.wp_mono (retypeSlots_places (hused ▸ hroom.fits) hd') ?_ ?_ (fun _ h => h.elim)
  · rintro _ m' ⟨hroom', rfl⟩
    rw [placeSlots_add]
    exact hok ((slotRoom_add a n hroom).mp hroom')
  · intro e m' hno
    exact herr (fun h => hno ((slotRoom_add a n hroom).mpr h)) e m'

theorem retypeCaps_places (hle : m.carving.used i ≤ 2 ^ bi.sizeOf i)
    (hd : 2 ^ pageBits4K ∣ m.carving.used i) :
    Places bi (retypeCaps config bi i n) m i pageBits4K m.slotKey n (m.placeSlots i n) := by
  induction n using Nat.strongRecOn generalizing m with
  | ind n ih =>
    unfold Places
    rw [retypeCaps]
    by_cases hn : n = 0
    · subst hn
      simp only [if_true, Prog.wp_pure]
      exact ⟨room_zero hle hd, (placeSlots_zero hd).symm⟩
    · simp only [if_neg hn, Prog.wp_bind, Prog.wp_gets, Prog.wp_modify]
      have hmod := Nat.mod_lt m.firstFreeSlot (show 0 < cnodeSlots by decide)
      have hpos := config.pos
      set a := min config.retypeFanOutLimit (min n (cnodeSlots - m.firstFreeSlot % cnodeSlots))
        with ha
      obtain ⟨b, hb⟩ : ∃ b, n = a + b := ⟨n - a, by omega⟩
      have hsub : n - a = b := by omega
      refine Prog.wp_mono bootRetype_places ?_ ?_ (fun _ h => h)
      · rintro _ m' ⟨hroom, rfl⟩
        have hd' : 2 ^ pageBits4K ∣ (m.placeSlots i a).carving.used i :=
          Carving.dvd_place_used ..
        have hle' : (m.placeSlots i a).carving.used i ≤ 2 ^ bi.sizeOf i := by
          show (m.carving.place i pageBits4K m.slotKey a).used i ≤ _
          rw [Carving.place_used_self]
          exact hroom.fits
        have hrest := ih b (by omega) hle' hd'
        rw [hsub]
        refine Prog.wp_mono hrest ?_ ?_ (fun _ h => h)
        · rintro _ m'' ⟨hroom', rfl⟩
          rw [hb, ← placeSlots_add]
          exact ⟨(slotRoom_add a b hroom).mp hroom', rfl⟩
        · intro _ _ hno h
          rw [hb] at h
          exact hno ((slotRoom_add a b hroom).mpr h)
      · intro _ _ hno h
        exact hno (h.mono (by omega))

theorem retypeCnodes_places (first total : Nat) (hle : m.carving.used i ≤ 2 ^ bi.sizeOf i)
    (hd : 2 ^ cnodeSizeBits ∣ m.carving.used i) (hn : first + total = n) :
    Places bi (retypeCnodes config bi i n total) m i cnodeSizeBits (fun k => .cnode (first + k))
      total (m.place i cnodeSizeBits (fun k => .cnode (first + k)) total) := by
  induction total using Nat.strongRecOn generalizing m first with
  | ind total ih =>
    unfold Places
    rw [retypeCnodes]
    by_cases h0 : total = 0
    · subst h0
      simp only [if_true, Prog.wp_pure]
      exact ⟨room_zero hle hd, (place_zero hd).symm⟩
    · simp only [if_neg h0, Prog.wp_bind]
      have hpos := config.pos
      have hfirst : n - total = first := by omega
      set a := min config.retypeFanOutLimit total with ha
      obtain ⟨b, hb⟩ : ∃ b, total = a + b := ⟨total - a, by omega⟩
      have hsub : total - a = b := by omega
      rw [hfirst, hsub]
      refine Prog.wp_mono bootRetype_places ?_ ?_ (fun _ h => h)
      · rintro _ m' ⟨hroom, rfl⟩
        have hd' : 2 ^ cnodeSizeBits ∣
            (m.place i cnodeSizeBits (fun k => .cnode (first + k)) a).carving.used i :=
          Carving.dvd_place_used ..
        have hle' : (m.place i cnodeSizeBits (fun k => .cnode (first + k)) a).carving.used i ≤
            2 ^ bi.sizeOf i := by
          show (m.carving.place i cnodeSizeBits _ a).used i ≤ _
          rw [Carving.place_used_self]
          exact hroom.fits
        have hkey : (fun k => BootCap.cnode (first + a + k)) =
            fun k => (fun k => BootCap.cnode (first + k)) (a + k) := by
          funext k
          rw [Nat.add_assoc]
        have hrest := ih b (by omega) (first + a) hle' hd' (by omega)
        rw [hkey] at hrest
        refine Prog.wp_mono hrest ?_ ?_ (fun _ h => h)
        · rintro _ m'' ⟨hroom', rfl⟩
          rw [hb, place_add]
          exact ⟨(room_add a b hroom).mp hroom', rfl⟩
        · intro _ _ hno h
          rw [hb] at h
          exact hno ((room_add a b hroom).mpr h)
      · intro _ _ hno h
        exact hno (h.mono (by omega))

/-! ## What every stage keeps -/

/-- The objects lie apart, and no two have the same capability. -/
structure Tidy (bi : BootInfo) (m : BootMem) : Prop where
  sound : m.carving.Sound bi.sizeOf
  keys : (m.carving.objects.map Carved.key).Nodup
  fresh : ∀ o ∈ m.carving.objects, ∀ c, o.key = .slot c → c < m.firstFreeSlot
  regions : ∀ o ∈ m.carving.objects, o.region < bi.untypedList.length

theorem Tidy.placeSlots (h : Tidy bi m) (hi : i < bi.untypedList.length)
    (hroom : m.Room bi i pageBits4K m.slotKey n) : Tidy bi (m.placeSlots i n) where
  sound := h.sound.place hroom.fits
  keys := by
    show ((m.carving.place i pageBits4K m.slotKey n).objects.map Carved.key).Nodup
    rw [Carving.place_keys]
    refine List.Nodup.append h.keys ?_ ?_
    · refine List.Nodup.map ?_ List.nodup_range
      intro a b hab
      simpa [slotKey] using hab
    · intro c hc hc'
      obtain ⟨o, ho, rfl⟩ := List.mem_map.mp hc
      obtain ⟨k, -, hkey⟩ := List.mem_map.mp hc'
      have hlt := h.fresh o ho (m.firstFreeSlot + k) hkey.symm
      exact absurd hlt (Nat.not_lt.mpr (Nat.le_add_right _ _))
  fresh o ho c hc := by
    show c < m.firstFreeSlot + n
    obtain ho | ⟨k, hk, rfl⟩ := Carving.mem_place.mp ho
    · exact Nat.lt_add_right n (h.fresh o ho c hc)
    · have hslot : BootCap.slot (m.firstFreeSlot + k) = .slot c := hc
      have heq : m.firstFreeSlot + k = c := BootCap.slot.inj hslot
      rw [← heq]
      exact Nat.add_lt_add_left hk _
  regions o ho := by
    obtain ho | ⟨k, -, rfl⟩ := Carving.mem_place.mp ho
    · exact h.regions o ho
    · exact hi

end BootMem

end Smos.RootServer
