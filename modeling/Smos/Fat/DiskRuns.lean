/-
Smos.Fat.DiskRuns — the FAT server's worker threads and the block device.

Four workers share one block queue. A worker in a disk function has one
request out and waits; the device serves the requests in any order and
`notified` wakes the worker whose answer is there. A write that does not fill
its blocks reads them first, so two such writes in one block could undo each
other: as long as no two unfinished writes share a block, the disk behaves as
a store whose reads and writes happen at one moment each.
-/
import Mathlib.Data.BitVec
import Mathlib.Logic.Function.Basic
import Smos.Base.AtomicStore
import Smos.Base.Run
import Smos.Fat.DiskIo

namespace Smos.Fat

open Smos.Base

/-! ## The system -/

/-- The handles of the worker threads; 0 is the event thread. -/
def workerThreads : List Nat := [1, 2, 3, 4]

inductive Phase where
  | idle
  | asked (wait : Wait) (req : BlkReq)
  | answered (wait : Wait) (status : Nat)

/-- What FatFs calls. -/
inductive DiskCall where
  | read (sector count : BitVec 32)
  | write (sector count : BitVec 32) (buff : List UInt8)
  | sync

structure Disk where
  disk : Nat → UInt8
  data : Nat → UInt8
  phase : Nat → Phase
  log : List (StoreEvent UInt8)

inductive DiskStep where
  | call (handle : Nat) (want : DiskCall)
  | serve (handle status successCount : Nat)
  | run (handle : Nat)

section Steps

variable (st : Storage)

/-- The operation on bytes that a call is. -/
def DiskCall.op : DiskCall → StoreOp UInt8
  | .read sector count => .read (st.sectorSize * sector.toNat) (st.sectorSize * count.toNat)
  | .write sector _ buff => .write (st.sectorSize * sector.toNat) buff
  | .sync => .sync

def Wait.op : Wait → StoreOp UInt8
  | .read sector count => .read (st.sectorSize * sector.toNat) (st.sectorSize * count.toNat)
  | .modify sector _ buff => .write (st.sectorSize * sector.toNat) buff
  | .write sector _ buff => .write (st.sectorSize * sector.toNat) buff
  | .sync => .sync

def startCall (handle : Nat) (data : Nat → UInt8) : DiskCall → Option Went
  | .read sector count => diskRead st handle sector count data
  | .write sector count buff => diskWrite st handle sector count buff data
  | .sync => some (diskSync handle data)

/-- The device moves whole transfer blocks; what fails may be done in part. -/
def servedBytes (req : BlkReq) (status successCount : Nat) : Nat :=
  (if status = 0 then req.count else min successCount req.count) * st.transferSize

def serveReq (req : BlkReq) (status successCount : Nat) (s : Disk) : Disk :=
  let n := servedBytes st req status successCount
  match req.code with
  | .read =>
    { s with data := put req.offset (load s.disk (req.block * st.transferSize) n) s.data }
  | .write =>
    { s with disk := put (req.block * st.transferSize) (load s.data req.offset n) s.disk }
  | .flush => s

def Disk.setPhase (s : Disk) (handle : Nat) (p : Phase) : Disk :=
  { s with phase := Function.update s.phase handle p }

/-- The worker waits again or comes back with its result. -/
def Disk.went (s : Disk) (handle : Nat) (op : StoreOp UInt8) : Went → Disk
  | .waits data req wait => { s with data := data }.setPhase handle (.asked wait req)
  | .returns res buff =>
    { s with log := s.log ++ [StoreEvent.returned handle op res buff] }.setPhase handle .idle

def Disk.next (s : Disk) : DiskStep → Option Disk
  | .call handle want =>
    if handle ∈ workerThreads then
      match s.phase handle with
      | .idle =>
        (startCall st handle s.data want).map fun w =>
          { s with log := s.log ++ [StoreEvent.called handle (want.op st)] }.went handle
            (want.op st) w
      | _ => none
    else none
  | .serve handle status successCount =>
    match s.phase handle with
    | .asked wait req =>
      some ((serveReq st req status successCount s).setPhase handle (.answered wait status))
    | _ => none
  | .run handle =>
    match s.phase handle with
    | .answered wait status =>
      some (s.went handle (wait.op st) (resume st handle s.data wait status))
    | _ => none

end Steps

/-- Nobody has called yet. -/
def DiskStart (disk : Nat → UInt8) (s : Disk) : Prop :=
  s.disk = disk ∧ (∀ h, s.phase h = .idle) ∧ s.log = []

/-! ## Unfinished writes -/

/-- The sectors of a write that the disk does not have yet. -/
def Phase.writing : Phase → Option (BitVec 32 × BitVec 32)
  | .asked (.modify sector count _) _ => some (sector, count)
  | .asked (.write sector count _) _ => some (sector, count)
  | .answered (.modify sector count _) status =>
    if status = 0 then some (sector, count) else none
  | _ => none

/-- No transfer block has sectors of both. -/
def BlocksApart (st : Storage) (x y : BitVec 32 × BitVec 32) : Prop :=
  st.blockStart x.1 + st.blockBytes x.1 x.2 ≤ st.blockStart y.1 ∨
    st.blockStart y.1 + st.blockBytes y.1 y.2 ≤ st.blockStart x.1

/-- ff.c asks for at most a cluster, and passes a buffer of that size. -/
def DiskCall.Sized (st : Storage) : DiskCall → Prop
  | .read _ count => count.toNat ≤ 2 ^ 15
  | .write _ count buff => count.toNat ≤ 2 ^ 15 ∧ buff.length = st.sectorSize * count.toNat
  | .sync => True

/-- The calls are sized, and a write has its blocks to itself among the unfinished writes. -/
def WritesApart (st : Storage) (s : Disk) : DiskStep → Prop
  | .call handle want =>
    want.Sized st ∧
      match want with
      | .write sector count _ =>
        ∀ h ∈ workerThreads, h ≠ handle → ∀ y ∈ (s.phase h).writing,
          BlocksApart st (sector, count) y
      | _ => True
  | _ => True

instance (st : Storage) (x y : BitVec 32 × BitVec 32) : Decidable (BlocksApart st x y) :=
  inferInstanceAs (Decidable (_ ∨ _))

instance (st : Storage) (x : BitVec 32 × BitVec 32) (p : Phase) :
    Decidable (∀ y ∈ p.writing, BlocksApart st x y) := Option.decidableForallMem _

instance (st : Storage) : DecidablePred (DiskCall.Sized st)
  | .read _ _ => inferInstanceAs (Decidable (_ ≤ _))
  | .write _ _ _ => inferInstanceAs (Decidable (_ ∧ _))
  | .sync => inferInstanceAs (Decidable True)

instance (st : Storage) (s : Disk) : DecidablePred (WritesApart st s)
  | .call _ (.read _ _) => inferInstanceAs (Decidable (_ ∧ True))
  | .call _ (.write _ _ _) => inferInstanceAs (Decidable (_ ∧ _))
  | .call _ .sync => inferInstanceAs (Decidable (_ ∧ True))
  | .serve _ _ _ => inferInstanceAs (Decidable True)
  | .run _ => inferInstanceAs (Decidable True)

/-! ## What the region of a worker holds -/

section Regions

variable (st : Storage) (handle : Nat) (data disk : Nat → UInt8)

/-- Where a worker's share of the data region begins. -/
def regionStart : Nat := st.threadBlkAddr (handle - 1)

/-- The sectors' blocks fit the worker's region. -/
def Fits (sector count : BitVec 32) : Prop :=
  count.toNat ≤ 2 ^ 15 ∧ st.blockBytes sector count ≤ st.maxClusterSize

/-- The region has the blocks of some sectors, as `disk` has them. -/
def ShowsBlocks (disk : Nat → UInt8) (sector count : BitVec 32) : Prop :=
  Shows data (regionStart st handle) disk (st.blockStart sector) (st.blockBytes sector count)

/-- The request is for the blocks of some sectors, at the worker's region. -/
def ReqFor (code : BlkCode) (sector count : BitVec 32) (req : BlkReq) : Prop :=
  req.code = code ∧ req.offset = regionStart st handle ∧
    req.block * st.transferSize = st.blockStart sector ∧
    req.count * st.transferSize = st.blockBytes sector count

/-- What a worker's request and region are for, at each of its waits. -/
def PhaseOk : Phase → Prop
  | .idle => True
  | .asked (.read sector count) req =>
    Fits st sector count ∧ ReqFor st handle .read sector count req
  | .asked (.modify sector count buff) req =>
    (Fits st sector count ∧ buff.length = st.sectorSize * count.toNat) ∧
      ReqFor st handle .read sector count req
  | .asked (.write sector count buff) req =>
    (Fits st sector count ∧ buff.length = st.sectorSize * count.toNat) ∧
      ReqFor st handle .write sector count req ∧
      ShowsBlocks st handle data (put (st.sectorSize * sector.toNat) buff disk) sector count
  | .asked .sync req => req.code = .flush
  | .answered (.read sector count) _ => Fits st sector count
  | .answered (.modify sector count buff) status =>
    (Fits st sector count ∧ buff.length = st.sectorSize * count.toNat) ∧
      (status = 0 → ShowsBlocks st handle data disk sector count)
  | .answered (.write _ _ _) _ => True
  | .answered .sync _ => True

/-- How far the operation of a worker is. -/
def callOf : Phase → StoreCall UInt8
  | .idle => .idle
  | .asked wait _ => .called (wait.op st)
  | .answered (.read sector count) status =>
    .done (Wait.op st (.read sector count)) status
      (load data (regionStart st handle + st.sectorOffset sector)
        (st.sectorSize * count.toNat))
  | .answered (.modify sector count buff) status =>
    if status = 0 then .called (Wait.op st (.modify sector count buff))
    else .done (Wait.op st (.modify sector count buff)) status []
  | .answered (.write sector count buff) status =>
    .done (Wait.op st (.write sector count buff)) status []
  | .answered .sync status => .done (Wait.op st .sync) status []

end Regions

/-- The store that the disk and its workers stand for. -/
def Disk.toStore (st : Storage) (s : Disk) : AtomicStore UInt8 :=
  { cells := s.disk, calls := fun h => callOf st h s.data (s.phase h), log := s.log }

/-- Every worker's region is as its wait needs it, and unfinished writes share no block. -/
structure Steady (st : Storage) (s : Disk) : Prop where
  idle_of_notMem : ∀ h, h ∉ workerThreads → s.phase h = .idle
  phaseOk : ∀ h, PhaseOk st h s.data s.disk (s.phase h)
  apart : ∀ h h', h ≠ h' → ∀ x ∈ (s.phase h).writing, ∀ y ∈ (s.phase h').writing,
    BlocksApart st x y

section Frames

variable {st : Storage} {h h' x : Nat} {data data' disk disk' : Nat → UInt8} {p : Phase}

theorem sddfReq_for (st : Storage) (handle : Nat) (code : BlkCode) {sector count : BitVec 32}
    (hc : count.toNat ≤ 2 ^ 15) :
    ReqFor st handle code sector count (sddfReq st handle code sector count) := by
  refine ⟨rfl, rfl, ?_, ?_⟩
  · rw [sddfReq, st.toNat_sddfSector]
    rfl
  · rw [sddfReq, st.toNat_sddfCount sector count (by omega)]
    rfl

/-- Two workers' regions do not overlap. -/
theorem regions_apart (st : Storage) (hh : h ∈ workerThreads) (hh' : h' ∈ workerThreads)
    (hne : h ≠ h') :
    regionStart st h + st.maxClusterSize ≤ regionStart st h' ∨
      regionStart st h' + st.maxClusterSize ≤ regionStart st h := by
  have hpos : ∀ i ∈ workerThreads, 1 ≤ i := by decide
  have h₁ := hpos h hh
  have h₂ := hpos h' hh'
  unfold regionStart Storage.threadBlkAddr
  rcases Nat.lt_or_gt_of_ne hne with hlt | hlt
  · left
    calc (h - 1) * st.maxClusterSize + st.maxClusterSize
        = (h - 1 + 1) * st.maxClusterSize := by rw [Nat.add_mul, Nat.one_mul]
      _ ≤ (h' - 1) * st.maxClusterSize := Nat.mul_le_mul_right _ (by omega)
  · right
    calc (h' - 1) * st.maxClusterSize + st.maxClusterSize
        = (h' - 1 + 1) * st.maxClusterSize := by rw [Nat.add_mul, Nat.one_mul]
      _ ≤ (h - 1) * st.maxClusterSize := Nat.mul_le_mul_right _ (by omega)

theorem put_congr {bs : List UInt8} {a : Nat} (hm : disk' x = disk x) :
    put a bs disk' x = put a bs disk x := by
  unfold put
  rw [hm]

theorem ShowsBlocks.congr {sector count : BitVec 32} (hs : ShowsBlocks st h data disk sector count)
    (hfits : Fits st sector count)
    (hdata : ∀ i, i < st.maxClusterSize →
      data' (regionStart st h + i) = data (regionStart st h + i))
    (hdisk : ∀ i, i < st.blockBytes sector count →
      disk' (st.blockStart sector + i) = disk (st.blockStart sector + i)) :
    ShowsBlocks st h data' disk' sector count :=
  Shows.congr hs (fun i hi => hdata i (Nat.lt_of_lt_of_le hi hfits.2)) hdisk

/-- A worker does not notice what happens outside its region and its own blocks. -/
theorem PhaseOk.congr (hp : PhaseOk st h data disk p)
    (hdata : ∀ i, i < st.maxClusterSize →
      data' (regionStart st h + i) = data (regionStart st h + i))
    (hdisk : ∀ y ∈ p.writing, ∀ i, i < st.blockBytes y.1 y.2 →
      disk' (st.blockStart y.1 + i) = disk (st.blockStart y.1 + i)) :
    PhaseOk st h data' disk' p := by
  cases p with
  | idle => trivial
  | asked wait req =>
    cases wait with
    | read sector count => exact hp
    | modify sector count buff => exact hp
    | write sector count buff =>
      have hmine := hdisk (sector, count) rfl
      exact ⟨hp.1, hp.2.1, hp.2.2.congr hp.1.1 hdata fun i hi => put_congr (hmine i hi)⟩
    | sync => exact hp
  | answered wait status =>
    cases wait with
    | read sector count => exact hp
    | modify sector count buff =>
      refine ⟨hp.1, ?_⟩
      intro hzero
      have hmine := hdisk (sector, count) (by rw [hzero]; rfl)
      exact (hp.2 hzero).congr hp.1.1 hdata hmine
    | write sector count buff => exact hp
    | sync => exact hp

theorem sectorOffset_add_le {sector count : BitVec 32} (hfits : Fits st sector count) :
    st.sectorOffset sector + st.sectorSize * count.toNat ≤ st.maxClusterSize :=
  Nat.le_trans (st.le_blockBytes sector count) hfits.2

theorem callOf_congr (hp : PhaseOk st h data disk p)
    (hdata : ∀ i, i < st.maxClusterSize →
      data' (regionStart st h + i) = data (regionStart st h + i)) :
    callOf st h data' p = callOf st h data p := by
  cases p with
  | idle => rfl
  | asked wait req => rfl
  | answered wait status =>
    cases wait with
    | read sector count =>
      have hle := sectorOffset_add_le hp
      have hload : load data' (regionStart st h + st.sectorOffset sector)
            (st.sectorSize * count.toNat) =
          load data (regionStart st h + st.sectorOffset sector)
            (st.sectorSize * count.toNat) := by
        refine List.ext_getElem (by simp) fun i hi _ => ?_
        rw [length_load] at hi
        rw [getElem_load, getElem_load, Nat.add_assoc]
        exact hdata _ (by omega)
      simp only [callOf]
      rw [hload]
    | modify sector count buff => rfl
    | write sector count buff => rfl
    | sync => rfl

end Frames

/-! ## What one worker's step leaves alone -/

/-- The step of a worker changed only its region, its own unfinished blocks and its phase. -/
structure Touched (st : Storage) (h : Nat) (s s' : Disk) : Prop where
  data : ∀ x, x < regionStart st h ∨ regionStart st h + st.maxClusterSize ≤ x →
    s'.data x = s.data x
  disk : ∀ x, (∀ y ∈ (s.phase h).writing,
    x < st.blockStart y.1 ∨ st.blockStart y.1 + st.blockBytes y.1 y.2 ≤ x) →
    s'.disk x = s.disk x
  phase : ∀ h', h' ≠ h → s'.phase h' = s.phase h'

section Touched

variable {st : Storage} {h h' : Nat} {s s' : Disk}

theorem Steady.mem_of_phase (ok : Steady st s) (hp : s.phase h ≠ .idle) : h ∈ workerThreads := by
  by_contra hh
  exact hp (ok.idle_of_notMem h hh)

theorem Touched.region (touched : Touched st h s s') (hh : h ∈ workerThreads)
    (hh' : h' ∈ workerThreads) (hne : h' ≠ h) :
    ∀ i, i < st.maxClusterSize →
      s'.data (regionStart st h' + i) = s.data (regionStart st h' + i) := by
  intro i hi
  apply touched.data
  rcases regions_apart st hh hh' hne.symm with hapart | hapart
  · right
    omega
  · left
    omega

theorem Steady.blocks (ok : Steady st s) (touched : Touched st h s s') (hne : h' ≠ h) :
    ∀ y ∈ (s.phase h').writing, ∀ i, i < st.blockBytes y.1 y.2 →
      s'.disk (st.blockStart y.1 + i) = s.disk (st.blockStart y.1 + i) := by
  intro y hy i hi
  apply touched.disk
  intro z hz
  rcases ok.apart h' h hne y hy z hz with hapart | hapart
  · left
    omega
  · right
    omega

/-- Every other worker is where it was. -/
theorem Steady.others (ok : Steady st s) (touched : Touched st h s s') (hh : h ∈ workerThreads)
    (hne : h' ≠ h) :
    PhaseOk st h' s'.data s'.disk (s'.phase h') ∧
      callOf st h' s'.data (s'.phase h') = callOf st h' s.data (s.phase h') := by
  rw [touched.phase h' hne]
  by_cases hh' : h' ∈ workerThreads
  · exact ⟨(ok.phaseOk h').congr (touched.region hh hh' hne) (ok.blocks touched hne),
      callOf_congr (ok.phaseOk h') (touched.region hh hh' hne)⟩
  · rw [ok.idle_of_notMem h' hh']
    exact ⟨trivial, rfl⟩

theorem Steady.touched (ok : Steady st s) (touched : Touched st h s s') (hh : h ∈ workerThreads)
    (hp : PhaseOk st h s'.data s'.disk (s'.phase h))
    (hw : ∀ x ∈ (s'.phase h).writing, x ∈ (s.phase h).writing ∨
      ∀ h' ∈ workerThreads, h' ≠ h → ∀ y ∈ (s.phase h').writing, BlocksApart st x y) :
    Steady st s' where
  idle_of_notMem h' hh' := by
    have hne : h' ≠ h := fun heq => hh' (heq ▸ hh)
    rw [touched.phase h' hne]
    exact ok.idle_of_notMem h' hh'
  phaseOk h' := by
    by_cases hne : h' = h
    · subst hne
      exact hp
    · exact (ok.others touched hh hne).1
  apart := by
    -- the worker's own write is an old one, or was checked when it was called
    have hmine : ∀ h', h' ≠ h → ∀ x ∈ (s'.phase h).writing, ∀ y ∈ (s'.phase h').writing,
        BlocksApart st x y := by
      intro h' hne x hx y hy
      rw [touched.phase h' hne] at hy
      rcases hw x hx with hold | hnew
      · exact ok.apart h h' hne.symm x hold y hy
      · by_cases hh' : h' ∈ workerThreads
        · exact hnew h' hh' hne y hy
        · rw [ok.idle_of_notMem h' hh'] at hy
          cases hy
    intro h₁ h₂ hne x hx y hy
    by_cases h₁h : h₁ = h
    · subst h₁h
      exact hmine h₂ hne.symm x hx y hy
    · by_cases h₂h : h₂ = h
      · subst h₂h
        exact (hmine h₁ h₁h y hy x hx).symm
      · rw [touched.phase h₁ h₁h] at hx
        rw [touched.phase h₂ h₂h] at hy
        exact ok.apart h₁ h₂ hne x hx y hy

theorem Steady.toStore_calls (ok : Steady st s) (touched : Touched st h s s')
    (hh : h ∈ workerThreads) {c : StoreCall UInt8}
    (hc : callOf st h s'.data (s'.phase h) = c) :
    (s'.toStore st).calls = Function.update (s.toStore st).calls h c := by
  funext h'
  by_cases hne : h' = h
  · subst hne
    rw [Function.update_self]
    exact hc
  · rw [Function.update_of_ne hne]
    exact (ok.others touched hh hne).2

end Touched

/-! ## What the functions do -/

section Functions

variable {st : Storage} {handle : Nat} {data disk : Nat → UInt8} {sector count : BitVec 32}
  {buff : List UInt8}

/-- Only the worker's region is different. -/
def InRegion (st : Storage) (handle : Nat) (data data' : Nat → UInt8) : Prop :=
  ∀ x, x < regionStart st handle ∨ regionStart st handle + st.maxClusterSize ≤ x →
    data' x = data x

theorem inRegion_put {a : Nat} (ha : regionStart st handle ≤ a)
    (hle : a + buff.length ≤ regionStart st handle + st.maxClusterSize) :
    InRegion st handle data (put a buff data) := by
  intro x hx
  rcases hx with hx | hx
  · exact put_of_lt (by omega)
  · exact put_of_ge (by omega)

theorem fits_of_assert (hc : count.toNat ≤ 2 ^ 15)
    (ha : st.assertFits (st.sddfCount sector count) = true) : Fits st sector count := by
  have hcount := st.toNat_sddfCount sector count (by omega)
  have hbytes : (st.sddfCount sector count).toNat * st.transferSize =
      st.blockBytes sector count := by
    rw [hcount]
    rfl
  have hlt := st.blockBytes_lt sector count
  have hoff := st.sectorOffset_lt sector
  have htransfer : st.transferSize ≤ 2 ^ 15 :=
    Nat.pow_le_pow_right (by decide) (Nat.le_of_lt_succ st.transfer_lt)
  have hsize : st.sectorSize ≤ 2 ^ 15 :=
    Nat.le_trans (Nat.pow_le_pow_right (by decide) st.sector_le) htransfer
  have hmul : st.sectorSize * count.toNat ≤ 2 ^ 15 * 2 ^ 15 := Nat.mul_le_mul hsize hc
  rw [st.assertFits_iff (by rw [hbytes]; omega), hbytes] at ha
  exact ⟨hc, ha⟩

/-- A whole buffer at the start of a region shows what the disk will have. -/
theorem shows_of_whole (hoff : st.sectorOffset sector = 0)
    (hbytes : st.blockBytes sector count = st.sectorSize * count.toNat)
    (hbuff : buff.length = st.sectorSize * count.toNat) :
    ShowsBlocks st handle (put (regionStart st handle) buff data)
      (put (st.sectorSize * sector.toNat) buff disk) sector count := by
  have hstart := st.blockStart_add sector
  rw [hoff, Nat.add_zero] at hstart
  intro i hi
  rw [hbytes] at hi
  rw [hstart, put_apply_of_lt (by omega) (by omega), put_apply_of_lt (by omega) (by omega)]
  congr 1
  omega

theorem resume_spec {wait : Wait} {status : Nat}
    (hp : PhaseOk st handle data disk (.answered wait status)) :
    (∃ buff, resume st handle data wait status = .returns status buff ∧
      callOf st handle data (.answered wait status) = .done (wait.op st) status buff) ∨
    ∃ data' req wait', resume st handle data wait status = .waits data' req wait' ∧
      InRegion st handle data data' ∧ PhaseOk st handle data' disk (.asked wait' req) ∧
      callOf st handle data (.answered wait status) = .called (wait'.op st) ∧
      (Phase.asked wait' req).writing = (Phase.answered wait status).writing := by
  cases wait with
  | read sector count => exact .inl ⟨_, rfl, rfl⟩
  | modify sector count buff =>
    by_cases hzero : status = 0
    · subst hzero
      right
      obtain ⟨⟨hfits, hbuff⟩, hshows⟩ := hp
      have hle := sectorOffset_add_le hfits
      have hpatch := (hshows rfl).patch (st.sectorOffset sector) buff
      rw [st.blockStart_add] at hpatch
      have hin : InRegion st handle data
          (put (regionStart st handle + st.sectorOffset sector) buff data) :=
        inRegion_put (by omega) (by omega)
      exact ⟨_, _, _, rfl, hin,
        ⟨⟨hfits, hbuff⟩, sddfReq_for st handle .write hfits.1, hpatch⟩, rfl, rfl⟩
    · left
      refine ⟨[], ?_, ?_⟩
      · exact if_pos hzero
      · exact if_neg hzero
  | write sector count buff => exact .inl ⟨_, rfl, rfl⟩
  | sync => exact .inl ⟨_, rfl, rfl⟩

/-- The write whose sectors are whole transfer blocks by their size. -/
theorem aligned_of_same_size (sector count : BitVec 32) (heq : st.sectorSize = st.transferSize) :
    st.sectorOffset sector = 0 ∧ st.blockBytes sector count = st.sectorSize * count.toNat := by
  have hone : st.perTransfer = 1 := by
    have hmul := st.sectorSize_mul
    rw [← heq] at hmul
    exact Nat.eq_of_mul_eq_mul_left st.sectorSize_pos (hmul.trans (Nat.mul_one _).symm)
  exact st.blockBytes_of_aligned sector count (by rw [hone, Nat.mod_one])
    (by rw [hone, Nat.mod_one])

theorem diskRead_spec (disk : Nat → UInt8) {w : Went} (hc : count.toNat ≤ 2 ^ 15)
    (hw : diskRead st handle sector count data = some w) :
    ∃ req, w = .waits data req (.read sector count) ∧
      PhaseOk st handle data disk (.asked (.read sector count) req) := by
  unfold diskRead at hw
  by_cases ha : st.assertFits (st.sddfCount sector count) = true
  · rw [if_pos ha] at hw
    cases hw
    exact ⟨_, rfl, fits_of_assert hc ha, sddfReq_for st handle .read hc⟩
  · rw [if_neg ha] at hw
    cases hw

/-- A write starts with its request, or with the one that reads its blocks. -/
theorem diskWrite_spec (disk : Nat → UInt8) {w : Went} (hc : count.toNat ≤ 2 ^ 15)
    (hbuff : buff.length = st.sectorSize * count.toNat)
    (hw : diskWrite st handle sector count buff data = some w) :
    ∃ data' req wait, w = .waits data' req wait ∧ InRegion st handle data data' ∧
      PhaseOk st handle data' disk (.asked wait req) ∧
      (wait = .write sector count buff ∨ wait = .modify sector count buff) := by
  -- the region gets the whole buffer at its start
  have whole : Fits st sector count → st.sectorOffset sector = 0 →
      st.blockBytes sector count = st.sectorSize * count.toNat → ∀ req,
      ReqFor st handle .write sector count req →
      InRegion st handle data (put (regionStart st handle) buff data) ∧
        PhaseOk st handle (put (regionStart st handle) buff data) disk
          (.asked (.write sector count buff) req) := by
    intro hfits hoff hbytes req hreq
    have hle := hfits.2
    exact ⟨inRegion_put (Nat.le_refl _) (by omega), ⟨hfits, hbuff⟩, hreq,
      shows_of_whole hoff hbytes hbuff⟩
  unfold diskWrite at hw
  by_cases hsame : st.sectorSize = st.transferSize
  · rw [if_pos hsame] at hw
    by_cases ha : st.assertFitsDirect count = true
    · rw [if_pos ha] at hw
      cases hw
      obtain ⟨hoff, hbytes⟩ := aligned_of_same_size sector count hsame
      have hstart := st.blockStart_add sector
      have htransfer : st.transferSize ≤ 2 ^ 15 :=
        Nat.pow_le_pow_right (by decide) (Nat.le_of_lt_succ st.transfer_lt)
      have hmul : count.toNat * st.transferSize ≤ 2 ^ 15 * 2 ^ 15 := Nat.mul_le_mul hc htransfer
      rw [st.assertFitsDirect_iff (by omega), ← hsame, Nat.mul_comm, ← hbytes] at ha
      rw [hoff, Nat.add_zero, hsame, Nat.mul_comm] at hstart
      rw [hsame, Nat.mul_comm] at hbytes
      have hreq : ReqFor st handle .write sector count
          { code := .write, offset := regionStart st handle, block := sector.toNat,
            count := count.toNat, id := handle } := ⟨rfl, rfl, hstart.symm, hbytes.symm⟩
      obtain ⟨hin, hok⟩ := whole ⟨hc, ha⟩ hoff (by rw [hbytes, hsame, Nat.mul_comm]) _ hreq
      exact ⟨_, _, _, rfl, hin, hok, .inl rfl⟩
    · rw [if_neg ha] at hw
      cases hw
  · rw [if_neg hsame] at hw
    by_cases ha : st.assertFits (st.sddfCount sector count) = true
    · rw [if_pos ha] at hw
      have hfits := fits_of_assert hc ha
      by_cases haligned :
          st.unalignedHeadSector sector = 0 ∧ st.unalignedTailSector sector count = 0
      · rw [if_pos haligned] at hw
        cases hw
        rw [st.unaligned_zero_iff] at haligned
        obtain ⟨hoff, hbytes⟩ := st.blockBytes_of_aligned sector count haligned.1 haligned.2
        obtain ⟨hin, hok⟩ := whole hfits hoff hbytes _ (sddfReq_for st handle .write hc)
        exact ⟨_, _, _, rfl, hin, hok, .inl rfl⟩
      · rw [if_neg haligned] at hw
        cases hw
        exact ⟨_, _, _, rfl, fun x _ => rfl,
          ⟨⟨hfits, hbuff⟩, sddfReq_for st handle .read hc⟩, .inr rfl⟩
    · rw [if_neg ha] at hw
      cases hw

theorem startCall_spec (disk : Nat → UInt8) {want : DiskCall} {w : Went} (hs : want.Sized st)
    (hw : startCall st handle data want = some w) :
    ∃ data' req wait, w = .waits data' req wait ∧ InRegion st handle data data' ∧
      PhaseOk st handle data' disk (.asked wait req) ∧ wait.op st = want.op st ∧
      ∀ x ∈ (Phase.asked wait req).writing, ∃ buff, want = .write x.1 x.2 buff := by
  cases want with
  | read sector count =>
    obtain ⟨req, rfl, hok⟩ := diskRead_spec disk hs hw
    exact ⟨_, _, _, rfl, fun x _ => rfl, hok, rfl, fun x hx => by cases hx⟩
  | write sector count buff =>
    obtain ⟨data', req, wait, rfl, hin, hok, hwait⟩ :=
      diskWrite_spec disk hs.1 hs.2 hw
    rcases hwait with rfl | rfl
    · exact ⟨_, _, _, rfl, hin, hok, rfl, fun x hx => by cases hx; exact ⟨buff, rfl⟩⟩
    · exact ⟨_, _, _, rfl, hin, hok, rfl, fun x hx => by cases hx; exact ⟨buff, rfl⟩⟩
  | sync =>
    cases hw
    exact ⟨_, _, _, rfl, fun x _ => rfl, rfl, rfl, fun x hx => by cases hx⟩

end Functions

/-! ## What the device does -/

section Device

variable {st : Storage} {h status successCount : Nat} {s : Disk} {sector count : BitVec 32}
  {buff : List UInt8} {req : BlkReq} {code : BlkCode} {wait : Wait}

/-- The state once the device has served a worker. -/
def Disk.served (st : Storage) (s : Disk) (h : Nat) (wait : Wait) (req : BlkReq)
    (status successCount : Nat) : Disk :=
  (serveReq st req status successCount s).setPhase h (.answered wait status)

theorem servedBytes_le (status successCount : Nat) (hreq : ReqFor st h code sector count req) :
    servedBytes st req status successCount ≤ st.blockBytes sector count := by
  rw [← hreq.2.2.2]
  unfold servedBytes
  apply Nat.mul_le_mul_right
  split
  · exact Nat.le_refl _
  · exact Nat.min_le_right _ _

theorem servedBytes_ok (hreq : ReqFor st h code sector count req) :
    servedBytes st req 0 successCount = st.blockBytes sector count := by
  rw [← hreq.2.2.2]
  rfl

theorem serveReq_read (hreq : ReqFor st h .read sector count req) :
    serveReq st req status successCount s =
      { s with data := put (regionStart st h)
                (load s.disk (st.blockStart sector) (servedBytes st req status successCount))
                s.data } := by
  unfold serveReq
  rw [hreq.1, hreq.2.1, hreq.2.2.1]

theorem serveReq_write (hreq : ReqFor st h .write sector count req) :
    serveReq st req status successCount s =
      { s with disk := put (st.blockStart sector)
                (load s.data (regionStart st h) (servedBytes st req status successCount))
                s.disk } := by
  unfold serveReq
  rw [hreq.1, hreq.2.1, hreq.2.2.1]

/-- A served read fills its worker's region only. -/
theorem touched_read (s : Disk) (wait : Wait) (status successCount : Nat)
    (hfits : Fits st sector count) (hreq : ReqFor st h .read sector count req) :
    Touched st h s (s.served st h wait req status successCount) := by
  have hle := servedBytes_le status successCount hreq
  have hmax := hfits.2
  unfold Disk.served
  rw [serveReq_read hreq]
  refine ⟨?_, fun x _ => rfl, fun h' hne => Function.update_of_ne hne _ _⟩
  exact inRegion_put (Nat.le_refl _) (by rw [length_load]; omega)

theorem served_disk (s : Disk) (wait : Wait) (status successCount : Nat)
    (hreq : ReqFor st h .read sector count req) :
    (s.served st h wait req status successCount).disk = s.disk := by
  unfold Disk.served
  rw [serveReq_read hreq]
  rfl

/-- And shows the disk's blocks if it succeeded. -/
theorem shows_read (s : Disk) (wait : Wait) (successCount : Nat)
    (hreq : ReqFor st h .read sector count req) :
    ShowsBlocks st h (s.served st h wait req 0 successCount).data
      (s.served st h wait req 0 successCount).disk sector count := by
  unfold Disk.served
  rw [serveReq_read hreq, servedBytes_ok hreq]
  exact shows_put_load _ _ _ _ _

/-- A served write changes its own sectors, from the first on. -/
theorem served_write (wait : Wait) (status successCount : Nat) (hshows : ShowsBlocks st h s.data
      (put (st.sectorSize * sector.toNat) buff s.disk) sector count)
    (hreq : ReqFor st h .write sector count req) :
    (s.served st h wait req status successCount).disk =
      put (st.sectorSize * sector.toNat)
        (buff.take (servedBytes st req status successCount - st.sectorOffset sector)) s.disk := by
  unfold Disk.served
  rw [serveReq_write hreq]
  unfold ShowsBlocks at hshows
  rw [← st.blockStart_add] at hshows ⊢
  exact put_load_patched hshows (servedBytes_le status successCount hreq)

theorem touched_write (wait : Wait) (status successCount : Nat)
    (hp : s.phase h = .asked (.write sector count buff) req)
    (hreq : ReqFor st h .write sector count req) :
    Touched st h s (s.served st h wait req status successCount) := by
  have hle := servedBytes_le status successCount hreq
  unfold Disk.served
  rw [serveReq_write hreq]
  refine ⟨fun x _ => rfl, ?_, fun h' hne => Function.update_of_ne hne _ _⟩
  intro x hx
  have hout : x < st.blockStart sector ∨
      st.blockStart sector + st.blockBytes sector count ≤ x :=
    hx (sector, count) (by rw [hp]; rfl)
  show put _ _ s.disk x = s.disk x
  rw [put_load_apply, if_neg (by omega)]

end Device

/-! ## Every step is one of the store's, or none -/

section Refines

variable {st : Storage} {h status successCount : Nat} {s s' : Disk} {wait : Wait} {req : BlkReq}

/-- The store makes one step, or stays. -/
def Follows (st : Storage) (s s' : Disk) : Prop :=
  s'.toStore st = s.toStore st ∨ ∃ l, (s.toStore st).next l = some (s'.toStore st)

theorem callOf_of_phase {p : Phase} (hp : s.phase h = p) :
    (s.toStore st).calls h = callOf st h s.data p := by
  rw [← hp]
  rfl

/-- The store's step that gives the disk, the worker's new call and the log. -/
theorem Steady.follows (ok : Steady st s) (touched : Touched st h s s') (hh : h ∈ workerThreads)
    {l : StoreLabel UInt8}
    (hl : (s.toStore st).next l = some ⟨s'.disk,
      Function.update (s.toStore st).calls h (callOf st h s'.data (s'.phase h)), s'.log⟩) :
    Follows st s s' := by
  right
  refine ⟨l, ?_⟩
  rw [hl, ← ok.toStore_calls touched hh rfl]
  rfl

/-- No step of the store, when the worker's call is where it was. -/
theorem Steady.stays (ok : Steady st s) (touched : Touched st h s s') (hh : h ∈ workerThreads)
    (hdisk : s'.disk = s.disk) (hlog : s'.log = s.log)
    (hc : callOf st h s'.data (s'.phase h) = callOf st h s.data (s.phase h)) :
    Follows st s s' := by
  left
  have hcalls := ok.toStore_calls touched hh hc
  have hself : Function.update (s.toStore st).calls h (callOf st h s.data (s.phase h)) =
      (s.toStore st).calls := Function.update_eq_self h _
  rw [hself] at hcalls
  unfold Disk.toStore at hcalls ⊢
  rw [hdisk, hlog]
  simp only [AtomicStore.mk.injEq, true_and, and_true]
  exact hcalls

@[simp] theorem served_phase : (s.served st h wait req status successCount).phase h =
    .answered wait status := Function.update_self ..

@[simp] theorem served_log : (s.served st h wait req status successCount).log = s.log := by
  unfold Disk.served Disk.setPhase serveReq
  cases req.code <;> rfl

variable {sector count : BitVec 32} {buff : List UInt8}

theorem Steady.serve_read (ok : Steady st s) (hh : h ∈ workerThreads)
    (hp : s.phase h = .asked (.read sector count) req) (status successCount : Nat) :
    Steady st (s.served st h (.read sector count) req status successCount) ∧
      Follows st s (s.served st h (.read sector count) req status successCount) := by
  have hok := ok.phaseOk h
  rw [hp] at hok
  obtain ⟨hfits, hreq⟩ := hok
  have touched := touched_read s (.read sector count) status successCount hfits hreq
  have hdisk := served_disk s (.read sector count) status successCount hreq
  constructor
  · refine ok.touched touched hh ?_ ?_
    · rw [served_phase]
      exact hfits
    · rw [served_phase]
      intro x hx
      cases hx
  · -- the bytes that the worker will find are the disk's of now
    have hbytes : status = 0 →
        load (s.served st h (.read sector count) req status successCount).data
            (regionStart st h + st.sectorOffset sector) (st.sectorSize * count.toNat) =
          load s.disk (st.sectorSize * sector.toNat) (st.sectorSize * count.toNat) := by
      intro hzero
      subst hzero
      have hshows := shows_read s (.read sector count) successCount hreq
      rw [hdisk] at hshows
      rw [← st.blockStart_add sector]
      exact hshows.load_eq (st.le_blockBytes sector count)
    refine ok.follows touched hh (l := .effect h status 0
      (load (s.served st h (.read sector count) req status successCount).data
        (regionStart st h + st.sectorOffset sector) (st.sectorSize * count.toNat))) ?_
    rw [AtomicStore.next_read _ _ _ (callOf_of_phase hp), hdisk, served_phase, served_log]
    simp only [callOf, Wait.op]
    by_cases hzero : status = 0
    · rw [if_pos hzero, hbytes hzero]
      rfl
    · rw [if_neg hzero]
      rfl

/-- The read that a write begins with: the store notices it only when it fails. -/
theorem Steady.serve_modify (ok : Steady st s) (hh : h ∈ workerThreads)
    (hp : s.phase h = .asked (.modify sector count buff) req) (status successCount : Nat) :
    Steady st (s.served st h (.modify sector count buff) req status successCount) ∧
      Follows st s (s.served st h (.modify sector count buff) req status successCount) := by
  have hok := ok.phaseOk h
  rw [hp] at hok
  obtain ⟨⟨hfits, hbuff⟩, hreq⟩ := hok
  have touched := touched_read s (.modify sector count buff) status successCount hfits hreq
  have hdisk := served_disk s (.modify sector count buff) status successCount hreq
  constructor
  · refine ok.touched touched hh ?_ ?_
    · rw [served_phase]
      refine ⟨⟨hfits, hbuff⟩, ?_⟩
      intro hzero
      subst hzero
      exact shows_read s (.modify sector count buff) successCount hreq
    · rw [served_phase, hp]
      intro x hx
      left
      by_cases hzero : status = 0
      · subst hzero
        exact hx
      · simp only [Phase.writing, if_neg hzero] at hx
        cases hx
  · by_cases hzero : status = 0
    · refine ok.stays touched hh hdisk served_log ?_
      rw [served_phase, hp]
      exact if_pos hzero
    · refine ok.follows touched hh (l := .effect h status 0 []) ?_
      rw [AtomicStore.next_write _ _ _ (callOf_of_phase hp), hdisk, served_phase, served_log]
      simp only [callOf, if_neg hzero, List.take_zero, put_nil]
      rfl

theorem Steady.serve_write (ok : Steady st s) (hh : h ∈ workerThreads)
    (hp : s.phase h = .asked (.write sector count buff) req) (status successCount : Nat) :
    Steady st (s.served st h (.write sector count buff) req status successCount) ∧
      Follows st s (s.served st h (.write sector count buff) req status successCount) := by
  have hok := ok.phaseOk h
  rw [hp] at hok
  obtain ⟨⟨hfits, hbuff⟩, hreq, hshows⟩ := hok
  have touched := touched_write (.write sector count buff) status successCount hp hreq
  have hdisk := served_write (.write sector count buff) status successCount hshows hreq
  constructor
  · refine ok.touched touched hh ?_ ?_
    · rw [served_phase]
      trivial
    · rw [served_phase]
      intro x hx
      cases hx
  · have htake : status = 0 →
        buff.take (servedBytes st req status successCount - st.sectorOffset sector) = buff := by
      intro hzero
      subst hzero
      have hle := st.le_blockBytes sector count
      rw [servedBytes_ok hreq]
      exact List.take_of_length_le (by omega)
    refine ok.follows touched hh (l := .effect h status
      (servedBytes st req status successCount - st.sectorOffset sector) []) ?_
    rw [AtomicStore.next_write _ _ _ (callOf_of_phase hp), hdisk, served_phase, served_log]
    by_cases hzero : status = 0
    · rw [if_pos hzero, htake hzero]
      rfl
    · rw [if_neg hzero]
      rfl

theorem Steady.serve_sync (ok : Steady st s) (hh : h ∈ workerThreads)
    (hp : s.phase h = .asked .sync req) (status successCount : Nat) :
    Steady st (s.served st h .sync req status successCount) ∧
      Follows st s (s.served st h .sync req status successCount) := by
  have hok := ok.phaseOk h
  rw [hp] at hok
  have hserved : s.served st h .sync req status successCount =
      s.setPhase h (.answered .sync status) := by
    unfold Disk.served serveReq
    rw [hok]
  have touched : Touched st h s (s.served st h .sync req status successCount) := by
    rw [hserved]
    exact ⟨fun _ _ => rfl, fun _ _ => rfl, fun _ hne => Function.update_of_ne hne _ _⟩
  constructor
  · refine ok.touched touched hh ?_ ?_
    · rw [served_phase]
      trivial
    · rw [served_phase]
      intro x hx
      cases hx
  · refine ok.follows touched hh (l := .effect h status 0 []) ?_
    rw [AtomicStore.next_sync _ _ _ (callOf_of_phase hp), served_phase, served_log, hserved]
    rfl

theorem touched_waits {data' : Nat → UInt8} (hin : InRegion st h s.data data')
    (log : List (StoreEvent UInt8)) (op : StoreOp UInt8) (req : BlkReq) (wait : Wait) :
    Touched st h s ({ s with log := log }.went h op (.waits data' req wait)) :=
  ⟨hin, fun _ _ => rfl, fun _ hne => Function.update_of_ne hne _ _⟩

theorem went_waits_phase {data' : Nat → UInt8} (op : StoreOp UInt8) (req : BlkReq)
    (wait : Wait) : (s.went h op (.waits data' req wait)).phase h = .asked wait req :=
  Function.update_self ..

/-- A worker calls a disk function. -/
theorem Steady.call (ok : Steady st s) (hh : h ∈ workerThreads) (hp : s.phase h = .idle)
    {want : DiskCall} {w : Went} (hw : startCall st h s.data want = some w)
    (hguard : WritesApart st s (.call h want)) :
    let s' := { s with log := s.log ++ [StoreEvent.called h (want.op st)] }.went h (want.op st) w
    Steady st s' ∧ Follows st s s' := by
  intro s'
  obtain ⟨data', req, wait, rfl, hin, hok, hop, hwriting⟩ :=
    startCall_spec s.disk hguard.1 hw
  have touched : Touched st h s s' := touched_waits hin _ _ _ _
  have hphase : s'.phase h = .asked wait req := went_waits_phase _ _ _
  constructor
  · refine ok.touched touched hh ?_ ?_
    · rw [hphase]
      exact hok
    · rw [hphase]
      intro x hx
      obtain ⟨buff, rfl⟩ := hwriting x hx
      exact .inr hguard.2
  · refine ok.follows touched hh (l := .call h (want.op st)) ?_
    rw [AtomicStore.next_call _ (callOf_of_phase hp), hphase]
    simp only [callOf]
    rw [hop]
    rfl

/-- A woken worker goes on. -/
theorem Steady.run (ok : Steady st s) (hh : h ∈ workerThreads) {status : Nat}
    (hp : s.phase h = .answered wait status) :
    let s' := s.went h (wait.op st) (resume st h s.data wait status)
    Steady st s' ∧ Follows st s s' := by
  intro s'
  have hok := ok.phaseOk h
  rw [hp] at hok
  rcases resume_spec hok with ⟨buff, hres, hcall⟩ | ⟨data', req, wait', hres, hin, hok', hcall, hw⟩
  · have hs' : s' = s.went h (wait.op st) (.returns status buff) := by rw [← hres]
    have touched : Touched st h s s' := by
      rw [hs']
      exact ⟨fun _ _ => rfl, fun _ _ => rfl, fun _ hne => Function.update_of_ne hne _ _⟩
    have hphase : s'.phase h = .idle := by
      rw [hs']
      exact Function.update_self ..
    constructor
    · refine ok.touched touched hh ?_ ?_
      · rw [hphase]
        trivial
      · rw [hphase]
        intro x hx
        cases hx
    · refine ok.follows touched hh (l := .ret h) ?_
      rw [AtomicStore.next_ret ((callOf_of_phase hp).trans hcall), hphase, hs']
      rfl
  · have hs' : s' = s.went h (wait.op st) (.waits data' req wait') := by rw [← hres]
    have touched : Touched st h s s' := by
      rw [hs']
      exact touched_waits hin s.log _ _ _
    have hphase : s'.phase h = .asked wait' req := by
      rw [hs']
      exact went_waits_phase _ _ _
    have hdata : s'.data = data' ∧ s'.disk = s.disk ∧ s'.log = s.log := by
      rw [hs']
      exact ⟨rfl, rfl, rfl⟩
    constructor
    · refine ok.touched touched hh ?_ ?_
      · rw [hphase, hdata.1, hdata.2.1]
        exact hok'
      · rw [hphase, hw, hp]
        intro x hx
        exact .inl hx
    · refine ok.stays touched hh hdata.2.1 hdata.2.2 ?_
      rw [hphase, hp, hcall]
      rfl

theorem Steady.next (ok : Steady st s) {a : DiskStep} (hguard : WritesApart st s a)
    (hn : s.next st a = some s') : Steady st s' ∧ Follows st s s' := by
  cases a with
  | call h want =>
    unfold Disk.next at hn
    by_cases hh : h ∈ workerThreads
    · simp only [if_pos hh] at hn
      cases hp : s.phase h with
      | idle =>
        simp only [hp] at hn
        obtain ⟨w, hw, rfl⟩ := Option.map_eq_some_iff.mp hn
        exact ok.call hh hp hw hguard
      | asked wait req => simp [hp] at hn
      | answered wait status => simp [hp] at hn
    · simp [if_neg hh] at hn
  | serve h status successCount =>
    unfold Disk.next at hn
    cases hp : s.phase h with
    | idle => simp [hp] at hn
    | answered wait status => simp [hp] at hn
    | asked wait req =>
      simp only [hp] at hn
      cases hn
      have hh := ok.mem_of_phase (by rw [hp]; simp)
      cases wait with
      | read sector count => exact ok.serve_read hh hp _ _
      | modify sector count buff => exact ok.serve_modify hh hp _ _
      | write sector count buff => exact ok.serve_write hh hp _ _
      | sync => exact ok.serve_sync hh hp _ _
  | run h =>
    unfold Disk.next at hn
    cases hp : s.phase h with
    | idle => simp [hp] at hn
    | asked wait req => simp [hp] at hn
    | answered wait status =>
      simp only [hp] at hn
      cases hn
      exact ok.run (ok.mem_of_phase (by rw [hp]; simp)) hp

theorem steady_of_start {disk : Nat → UInt8} (h₀ : DiskStart disk s) : Steady st s := by
  obtain ⟨-, hidle, -⟩ := h₀
  refine ⟨fun h _ => hidle h, ?_, ?_⟩
  · intro h
    rw [hidle h]
    trivial
  · intro h h' _ x hx
    rw [hidle h] at hx
    cases hx

/-- A run of the workers and the device is a run of the store. -/
theorem steady_run {disk : Nat → UInt8} {ls : List DiskStep}
    (run : Run (DiskStart disk) (Disk.next st) (WritesApart st) ls s) :
    Steady st s ∧ ∃ ls', Run (AtomicStore.Start disk) AtomicStore.next (fun _ _ => True) ls'
      (s.toStore st) := by
  induction run with
  | init h₀ =>
    refine ⟨steady_of_start h₀, [], .init ⟨h₀.1, ?_, h₀.2.2⟩⟩
    intro c
    exact callOf_of_phase (h₀.2.1 c)
  | step _ hguard hn ih =>
    obtain ⟨ok, ls', runs⟩ := ih
    obtain ⟨ok', hfollows⟩ := ok.next hguard hn
    rcases hfollows with hsame | ⟨l, hl⟩
    · exact ⟨ok', ls', hsame ▸ runs⟩
    · exact ⟨ok', ls' ++ [l], runs.step trivial hl⟩

/--
In every run of the workers and the device in which no two unfinished writes
share a transfer block, disk and results are those of a store whose reads and
writes each happen at one moment between their call and their return. A write
changes its own sectors only, even though the device moves whole blocks.
-/
theorem disk_is_atomic {disk : Nat → UInt8} {ls : List DiskStep}
    (run : Run (DiskStart disk) (Disk.next st) (WritesApart st) ls s) :
    ∃ ls' t, Run (AtomicStore.Start disk) AtomicStore.next (fun _ _ => True) ls' t ∧
      t.cells = s.disk ∧ t.log = s.log ∧ ∀ h, s.phase h = .idle → t.calls h = .idle := by
  obtain ⟨-, ls', runs⟩ := steady_run run
  exact ⟨ls', s.toStore st, runs, rfl, rfl, fun h hp => callOf_of_phase hp⟩

/-! ## Two writes in two blocks, and in one -/

def emptyDisk : Disk := ⟨fun _ => 0, fun _ => 0, fun _ => .idle, []⟩

/-- Two workers write a sector each, both reading its block before either writes it. -/
def twoWrites (sector sector' : BitVec 32) : List DiskStep :=
  [.call 1 (.write sector 1 (List.replicate 512 7)),
    .call 2 (.write sector' 1 (List.replicate 512 9)),
    .serve 1 0 1, .serve 2 0 1, .run 1, .run 2, .serve 2 0 1, .serve 1 0 1, .run 1, .run 2]

theorem disk_is_atomic_demo : ∃ (s : Disk) (ls' : List (StoreLabel UInt8)) (t : AtomicStore UInt8),
    Run (AtomicStore.Start fun _ => 0) AtomicStore.next (fun _ _ => True) ls' t ∧
      t.cells 512 = 7 ∧ t.cells 4096 = 9 ∧ t.log = s.log ∧ s.log.length = 4 := by
  have hrun : ∃ s, Run (DiskStart fun _ => 0) (Disk.next smallSectors) (WritesApart smallSectors)
      (twoWrites 1 8) s ∧ s.disk 512 = 7 ∧ s.disk 4096 = 9 ∧ s.log.length = 4 := by
    refine Run.exists_of_steps (s := emptyDisk) ⟨rfl, fun _ => rfl, rfl⟩ ?_ ?_
    · decide +kernel
    · decide +kernel
  obtain ⟨s, run, h₁, h₂, hlog⟩ := hrun
  obtain ⟨ls', t, runs, hcells, ht, -⟩ := disk_is_atomic run
  exact ⟨s, ls', t, runs, by rw [hcells, h₁], by rw [hcells, h₂], ht, hlog⟩

/-- In one block the later write takes the earlier one back. -/
example : (Run.steps (Disk.next smallSectors) emptyDisk (twoWrites 1 2)).any
    (fun s => s.disk 512 == 7 && s.disk 1024 == 0) = true := by decide +kernel

end Refines

end Smos.Fat
