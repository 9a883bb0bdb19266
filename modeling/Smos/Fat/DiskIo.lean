/-
Smos.Fat.DiskIo — the block requests of the FAT server's disk functions.

FatFs counts in sectors, the block device in transfer blocks of one or more
sectors. `diskRead`, `diskWrite` and `diskSync` are io.c's functions up to the
first `wait_for_blk_resp`, `resume` is what they do once the answer is there;
`none` is a failed assertion. The arithmetic is on 32-bit words as in the
source, with the signed intermediate count that may be -1.
-/
import Mathlib.Data.BitVec
import Mathlib.Tactic.Linarith
import Mathlib.Tactic.Ring
import Smos.Base.Blocks

namespace Smos.Fat

open Smos.Base

/-! ## The storage -/

/-- `__builtin_ctz`. -/
def ctz (b : BitVec 32) : Nat := ((List.range 32).find? b.getLsbD).getD 32

/-- `IS_POWER_OF_2`. -/
def isPowerOf2 (x : Nat) : Bool := x != 0 && x &&& (x - 1) == 0

/-- What `disk_initialize` asserts of the sector size. -/
def sectorSizeAsserted (blkTransferSize sectorSize : Nat) : Bool :=
  sectorSize % 512 == 0 && decide (sectorSize ≤ blkTransferSize) &&
    isPowerOf2 (blkTransferSize / sectorSize)

/-- The sizes of a mounted volume's storage, and a worker's share of the data region. -/
structure Storage where
  transferBits : Nat
  sectorBits : Nat
  maxClusterSize : Nat
  sector_le : sectorBits ≤ transferBits
  transfer_lt : transferBits < 16

namespace Storage

variable (st : Storage)

def transferSize : Nat := 2 ^ st.transferBits
def sectorSize : Nat := 2 ^ st.sectorBits

end Storage

theorem isPowerOf2_iff {x : Nat} : isPowerOf2 x = true ↔ ∃ k, x = 2 ^ k := by
  unfold isPowerOf2
  rw [Bool.and_eq_true, bne_iff_ne, beq_iff_eq,
    Nat.ne_zero_and_sub_one_eq_zero_iff_isPowerOfTwo]
  rfl

/-- `disk_initialize` asserts and `f_mount` checks enough to build a `Storage`. -/
theorem storage_of_asserted {blkTransferSize sectorSize : Nat}
    (hT : isPowerOf2 blkTransferSize = true) (hlt : blkTransferSize < 2 ^ 16)
    (ha : sectorSizeAsserted blkTransferSize sectorSize = true)
    (hS : isPowerOf2 sectorSize = true) (maxClusterSize : Nat) :
    ∃ st : Storage, st.transferSize = blkTransferSize ∧ st.sectorSize = sectorSize ∧
      st.maxClusterSize = maxClusterSize := by
  obtain ⟨t, rfl⟩ := isPowerOf2_iff.mp hT
  obtain ⟨e, rfl⟩ := isPowerOf2_iff.mp hS
  have hle : 2 ^ e ≤ 2 ^ t := by
    unfold sectorSizeAsserted at ha
    simp only [Bool.and_eq_true, decide_eq_true_eq] at ha
    exact ha.1.2
  exact ⟨⟨t, e, maxClusterSize, (Nat.pow_le_pow_iff_right (by decide)).mp hle,
    (Nat.pow_lt_pow_iff_right (by decide)).mp hlt⟩, rfl, rfl, rfl⟩

/-- The assertions alone let through a size that is no power of two. -/
example : sectorSizeAsserted 4096 1536 = true ∧ isPowerOf2 1536 = false := by decide

/-! ## The arithmetic of a request -/

def modPowerOf2 (a b : BitVec 32) : BitVec 32 := a &&& (b - 1)

/-- `DIV_POWER_OF_2` of an unsigned number. -/
def divPowerOf2 (a b : BitVec 32) : BitVec 32 := a >>> ctz b

/-- `DIV_POWER_OF_2` of a signed number: an arithmetic shift. -/
def divPowerOf2Signed (a b : BitVec 32) : BitVec 32 := a.sshiftRight (ctz b)

def mulPowerOf2 (a b : BitVec 32) : BitVec 32 := a <<< ctz b

namespace Storage

variable (st : Storage)

def blkTransferSize : BitVec 32 := BitVec.ofNat 32 st.transferSize

def sectorPerTransfer : BitVec 32 :=
  divPowerOf2 st.blkTransferSize (BitVec.ofNat 32 st.sectorSize)

def sddfSector (sector : BitVec 32) : BitVec 32 := divPowerOf2 sector st.sectorPerTransfer

def unalignedHeadSector (sector : BitVec 32) : BitVec 32 :=
  modPowerOf2 (st.sectorPerTransfer - modPowerOf2 sector st.sectorPerTransfer) st.sectorPerTransfer

def unalignedTailSector (sector count : BitVec 32) : BitVec 32 :=
  modPowerOf2 (sector + count) st.sectorPerTransfer

def sddfCount (sector count : BitVec 32) : BitVec 32 :=
  let head := st.unalignedHeadSector sector
  let tail := st.unalignedTailSector sector count
  let alignedSector := count - head - tail
  (if head ≠ 0 then 1 else 0) + (if tail ≠ 0 then 1 else 0) +
    divPowerOf2Signed alignedSector st.sectorPerTransfer

/-- `assert(MUL_POWER_OF_2(sddf_count, BLK_TRANSFER_SIZE) <= max_cluster_size)`. -/
def assertFits (n : BitVec 32) : Bool :=
  decide (((mulPowerOf2 n st.blkTransferSize).signExtend 64).toNat ≤ st.maxClusterSize)

/-- The same assertion of the direct write, whose count is unsigned. -/
def assertFitsDirect (n : BitVec 32) : Bool :=
  decide ((mulPowerOf2 n st.blkTransferSize).toNat ≤ st.maxClusterSize)

/-- `thread_blk_addr[i]`. -/
def threadBlkAddr (i : Nat) : Nat := i * st.maxClusterSize

/-- Where in its region a worker finds its first sector. -/
def sectorOffset (sector : BitVec 32) : Nat :=
  st.sectorSize * (modPowerOf2 sector st.sectorPerTransfer).toNat

end Storage

/-! ## The functions -/

inductive BlkCode where
  | read
  | write
  | flush
  deriving DecidableEq, Repr

/-- What `blk_enqueue_req` is called with. -/
structure BlkReq where
  code : BlkCode
  offset : Nat
  block : Nat
  count : Nat
  id : Nat
  deriving DecidableEq, Repr

/-- Where a function waits for its answer, with the locals it goes on with. -/
inductive Wait where
  | read (sector count : BitVec 32)
  | modify (sector count : BitVec 32) (buff : List UInt8)
  | write (sector count : BitVec 32) (buff : List UInt8)
  | sync
  deriving Repr

/-- What a function did before it waits again, or its result. -/
inductive Went where
  | waits (data : Nat → UInt8) (req : BlkReq) (wait : Wait)
  | returns (res : Nat) (buff : List UInt8)

section Functions

variable (st : Storage) (handle : Nat)

/-- The request for all transfer blocks around some sectors. -/
def sddfReq (code : BlkCode) (sector count : BitVec 32) : BlkReq :=
  { code, offset := st.threadBlkAddr (handle - 1), block := (st.sddfSector sector).toNat,
    count := (st.sddfCount sector count).toNat, id := handle }

def diskRead (sector count : BitVec 32) (data : Nat → UInt8) : Option Went :=
  if st.assertFits (st.sddfCount sector count) then
    some (.waits data (sddfReq st handle .read sector count) (.read sector count))
  else none

def diskWrite (sector count : BitVec 32) (buff : List UInt8) (data : Nat → UInt8) :
    Option Went :=
  let writeDataOffset := st.threadBlkAddr (handle - 1)
  if st.sectorSize = st.transferSize then
    if st.assertFitsDirect count then
      some (.waits (put writeDataOffset buff data)
        { code := .write, offset := writeDataOffset, block := sector.toNat,
          count := count.toNat, id := handle }
        (.write sector count buff))
    else none
  else if st.assertFits (st.sddfCount sector count) then
    if st.unalignedHeadSector sector = 0 ∧ st.unalignedTailSector sector count = 0 then
      some (.waits (put writeDataOffset buff data) (sddfReq st handle .write sector count)
        (.write sector count buff))
    else
      some (.waits data (sddfReq st handle .read sector count) (.modify sector count buff))
  else none

/-- `disk_ioctl` with `CTRL_SYNC`. -/
def diskSync (data : Nat → UInt8) : Went :=
  .waits data { code := .flush, offset := 0, block := 0, count := 0, id := handle } .sync

/-- What a function does with the answer it waited for; `RES_OK` is 0. -/
def resume (data : Nat → UInt8) : Wait → Nat → Went
  | .read sector count, res =>
    .returns res
      (load data (st.threadBlkAddr (handle - 1) + st.sectorOffset sector)
        (st.sectorSize * count.toNat))
  | .modify sector count buff, res =>
    -- a failed read ends the write
    if res ≠ 0 then .returns res []
    else
      .waits (put (st.threadBlkAddr (handle - 1) + st.sectorOffset sector) buff data)
        (sddfReq st handle .write sector count) (.write sector count buff)
  | .write _ _ _, res => .returns res []
  | .sync, res => .returns res []

end Functions

/-! ## What the arithmetic computes -/

theorem ctz_two_pow {k : Nat} (hk : k < 32) : ctz (BitVec.ofNat 32 (2 ^ k)) = k := by
  have hbit : ∀ i, i < 32 → (BitVec.ofNat 32 (2 ^ k)).getLsbD i = decide (k = i) := by
    intro i hi
    rw [BitVec.getLsbD_ofNat, Nat.testBit_two_pow]
    simp [hi]
  have hfind : (List.range 32).find? (BitVec.ofNat 32 (2 ^ k)).getLsbD = some k := by
    rw [List.find?_range_eq_some]
    refine ⟨by rw [hbit k hk]; simp, by simpa using hk, ?_⟩
    intro j hj
    rw [hbit j (by omega)]
    simpa using Nat.ne_of_gt hj
  unfold ctz
  rw [hfind]
  rfl

theorem toNat_two_pow {k : Nat} (hk : k < 32) : (BitVec.ofNat 32 (2 ^ k)).toNat = 2 ^ k := by
  rw [BitVec.toNat_ofNat]
  exact Nat.mod_eq_of_lt (Nat.pow_lt_pow_right (by decide) hk)

theorem toNat_modPowerOf2 {k : Nat} (hk : k < 32) (a : BitVec 32) :
    (modPowerOf2 a (BitVec.ofNat 32 (2 ^ k))).toNat = a.toNat % 2 ^ k := by
  have hpos : 0 < 2 ^ k := Nat.two_pow_pos k
  have hsub : (BitVec.ofNat 32 (2 ^ k) - 1#32).toNat = 2 ^ k - 1 := by
    rw [BitVec.toNat_sub_of_le, toNat_two_pow hk]
    · rfl
    · rw [BitVec.le_def, toNat_two_pow hk]
      exact hpos
  unfold modPowerOf2
  rw [BitVec.toNat_and]
  have hone : (1 : BitVec 32) = 1#32 := rfl
  rw [hone, hsub, Nat.and_two_pow_sub_one_eq_mod]

theorem toNat_divPowerOf2 {k : Nat} (hk : k < 32) (a : BitVec 32) :
    (divPowerOf2 a (BitVec.ofNat 32 (2 ^ k))).toNat = a.toNat / 2 ^ k := by
  unfold divPowerOf2
  rw [ctz_two_pow hk, BitVec.toNat_ushiftRight, Nat.shiftRight_eq_div_pow]

theorem toInt_sub_exact {x y : BitVec 32} (hlo : -2 ^ 31 ≤ x.toInt - y.toInt)
    (hhi : x.toInt - y.toInt < 2 ^ 31) : (x - y).toInt = x.toInt - y.toInt := by
  rw [BitVec.toInt_sub]
  exact Int.bmod_eq_of_le (by omega) (by omega)

theorem toInt_add_exact {x y : BitVec 32} (hlo : -2 ^ 31 ≤ x.toInt + y.toInt)
    (hhi : x.toInt + y.toInt < 2 ^ 31) : (x + y).toInt = x.toInt + y.toInt := by
  rw [BitVec.toInt_add]
  exact Int.bmod_eq_of_le (by omega) (by omega)

theorem toNat_eq_of_toInt {x : BitVec 32} {n : Nat} (hn : n < 2 ^ 31) (h : x.toInt = n) :
    x.toNat = n := by
  rw [BitVec.toInt_eq_toNat_cond] at h
  have hlt := x.isLt
  split at h <;> omega

theorem toInt_ite_one (q : Prop) [Decidable q] :
    (if q then (1 : BitVec 32) else 0).toInt = if q then 1 else 0 := by
  split <;> rfl

theorem ne_zero_iff_toNat (x : BitVec 32) : x ≠ 0 ↔ x.toNat ≠ 0 := by
  rw [Ne, ← BitVec.toNat_inj]
  rfl

namespace Storage

variable (st : Storage) (sector count : BitVec 32)

/-- How many sectors are in a transfer block. -/
def perTransfer : Nat := 2 ^ (st.transferBits - st.sectorBits)

theorem perTransfer_pos : 0 < st.perTransfer := Nat.two_pow_pos _

theorem sectorSize_pos : 0 < st.sectorSize := Nat.two_pow_pos _

theorem sectorSize_mul : st.sectorSize * st.perTransfer = st.transferSize := by
  unfold sectorSize perTransfer transferSize
  rw [← Nat.pow_add, Nat.add_sub_cancel' st.sector_le]

theorem perTransfer_le : st.perTransfer ≤ 2 ^ 15 :=
  Nat.pow_le_pow_right (by decide)
    (Nat.le_trans (Nat.sub_le _ _) (Nat.le_of_lt_succ st.transfer_lt))

theorem perTransfer_dvd : st.perTransfer ∣ 2 ^ 32 := by
  have hlt := st.transfer_lt
  exact Nat.pow_dvd_pow 2 (by omega)

theorem sectorPerTransfer_eq : st.sectorPerTransfer = BitVec.ofNat 32 st.perTransfer := by
  have ht := st.transfer_lt
  have hs := st.sector_le
  apply BitVec.eq_of_toNat_eq
  unfold sectorPerTransfer blkTransferSize transferSize sectorSize perTransfer
  rw [toNat_divPowerOf2 (by omega), toNat_two_pow (by omega), toNat_two_pow (by omega),
    Nat.pow_div hs (by decide)]

theorem toNat_sddfSector :
    (st.sddfSector sector).toNat = firstBlock st.perTransfer sector.toNat := by
  have ht := st.transfer_lt
  unfold sddfSector
  rw [sectorPerTransfer_eq]
  unfold perTransfer firstBlock
  exact toNat_divPowerOf2 (by omega) sector

theorem toNat_mod_sectorPerTransfer (a : BitVec 32) :
    (modPowerOf2 a st.sectorPerTransfer).toNat = a.toNat % st.perTransfer := by
  have ht := st.transfer_lt
  rw [sectorPerTransfer_eq]
  unfold perTransfer
  exact toNat_modPowerOf2 (by omega) a

theorem sectorOffset_eq :
    st.sectorOffset sector = st.sectorSize * (sector.toNat % st.perTransfer) := by
  unfold sectorOffset
  rw [toNat_mod_sectorPerTransfer]

theorem toNat_unalignedTailSector :
    (st.unalignedTailSector sector count).toNat =
      (sector.toNat + count.toNat) % st.perTransfer := by
  unfold unalignedTailSector
  rw [toNat_mod_sectorPerTransfer, BitVec.toNat_add, Nat.mod_mod_of_dvd _ st.perTransfer_dvd]

theorem toNat_unalignedHeadSector :
    (st.unalignedHeadSector sector).toNat =
      (st.perTransfer - sector.toNat % st.perTransfer) % st.perTransfer := by
  have hpos := st.perTransfer_pos
  have hle := st.perTransfer_le
  have hmod := Nat.mod_lt sector.toNat hpos
  have hper : st.sectorPerTransfer.toNat = st.perTransfer := by
    rw [sectorPerTransfer_eq, BitVec.toNat_ofNat]
    exact Nat.mod_eq_of_lt (by omega)
  have hsub : (st.sectorPerTransfer - modPowerOf2 sector st.sectorPerTransfer).toNat =
      st.perTransfer - sector.toNat % st.perTransfer := by
    rw [BitVec.toNat_sub_of_le, hper, toNat_mod_sectorPerTransfer]
    rw [BitVec.le_def, hper, toNat_mod_sectorPerTransfer]
    exact Nat.le_of_lt hmod
  unfold unalignedHeadSector
  rw [toNat_mod_sectorPerTransfer, hsub]

/-- The sectors past the unaligned ends, minus one block where they are all in one. -/
theorem aligned_eq {p r c : Nat} (hr : r < p) :
    (c : Int) - ((p - r) % p : Nat) - ((r + c) % p : Nat) =
      p * (((r + c) / p : Nat) - if (p - r) % p ≠ 0 then (1 : Int) else 0) := by
  have hdiv := Nat.div_add_mod (r + c) p
  generalize hq : (r + c) / p = q at hdiv ⊢
  generalize ht : (r + c) % p = t at hdiv ⊢
  have hcast : (p : Int) * q + t = r + c := by exact_mod_cast hdiv
  by_cases hzero : r = 0
  · subst hzero
    rw [Nat.sub_zero, Nat.mod_self, if_neg (by simp)]
    push_cast at hcast ⊢
    linarith
  · have hhead : (p - r) % p = p - r := Nat.mod_eq_of_lt (by omega)
    rw [hhead, if_pos (by omega), Nat.cast_sub (Nat.le_of_lt hr), Int.mul_sub]
    linarith

/-- Blocks are counted once more where the sectors do not end with one. -/
theorem ceil_eq {p r c : Nat} (hp : 0 < p) :
    (if (p - r) % p ≠ 0 then 1 else 0) + (if (r + c) % p ≠ 0 then 1 else 0) +
        (((r + c) / p : Nat) - if (p - r) % p ≠ 0 then (1 : Int) else 0) =
      ((r + c + (p - 1)) / p : Nat) := by
  have hdiv := Nat.div_add_mod (r + c) p
  have hmod := Nat.mod_lt (r + c) hp
  have hceil : (r + c + (p - 1)) / p =
      (r + c) / p + if (r + c) % p ≠ 0 then 1 else 0 := by
    generalize (r + c) / p = q at hdiv ⊢
    generalize (r + c) % p = t at hdiv hmod ⊢
    rw [← hdiv, Nat.add_assoc, Nat.mul_add_div hp]
    by_cases ht : t = 0
    · rw [ht, if_neg (by simp), Nat.div_eq_of_lt (by omega)]
    · have hone : (t + (p - 1)) / p = 1 := Nat.div_eq_of_lt_le (by omega) (by omega)
      rw [if_pos ht, hone]
  rw [hceil]
  push_cast
  ring

theorem toInt_divPowerOf2Signed (a : BitVec 32) :
    (divPowerOf2Signed a st.sectorPerTransfer).toInt = a.toInt / st.perTransfer := by
  have ht := st.transfer_lt
  unfold divPowerOf2Signed
  rw [BitVec.toInt_sshiftRight, sectorPerTransfer_eq]
  unfold perTransfer
  rw [ctz_two_pow (by omega), Int.shiftRight_eq_div_pow]

/-- `sddf_count` is the number of transfer blocks the sectors are in. -/
theorem toNat_sddfCount (hc : count.toNat < 2 ^ 30) :
    (st.sddfCount sector count).toNat =
      blockCount st.perTransfer sector.toNat count.toNat := by
  have hpos := st.perTransfer_pos
  have hle := st.perTransfer_le
  have hr := Nat.mod_lt sector.toNat hpos
  have hhead := st.toNat_unalignedHeadSector sector
  have htail := st.toNat_unalignedTailSector sector count
  rw [Nat.add_mod, Nat.add_mod_mod] at htail
  set head := st.unalignedHeadSector sector with hheadDef
  set tail := st.unalignedTailSector sector count with htailDef
  have hheadLt : head.toNat < st.perTransfer := hhead ▸ Nat.mod_lt _ hpos
  have htailLt : tail.toNat < st.perTransfer := htail ▸ Nat.mod_lt _ hpos
  have hcountInt := BitVec.toInt_eq_toNat_of_lt (x := count) (by omega)
  have hheadInt := BitVec.toInt_eq_toNat_of_lt (x := head) (by omega)
  have htailInt := BitVec.toInt_eq_toNat_of_lt (x := tail) (by omega)
  -- neither the differences nor the sums overflow
  have hsub : (count - head).toInt = count.toInt - head.toInt :=
    toInt_sub_exact (by omega) (by omega)
  have haligned : (count - head - tail).toInt =
      (count.toNat : Int) - head.toNat - tail.toNat := by
    rw [toInt_sub_exact (by omega) (by omega), hsub, hcountInt, hheadInt, htailInt]
  rw [hhead, htail, aligned_eq hr] at haligned
  have hdiv : (divPowerOf2Signed (count - head - tail) st.sectorPerTransfer).toInt =
      (((sector.toNat % st.perTransfer + count.toNat) / st.perTransfer : Nat) : Int) -
        if (st.perTransfer - sector.toNat % st.perTransfer) % st.perTransfer ≠ 0 then 1 else 0 := by
    rw [toInt_divPowerOf2Signed, haligned,
      Int.mul_ediv_cancel_left _ (Int.natCast_ne_zero.mpr (Nat.ne_of_gt hpos))]
  have hquot : (sector.toNat % st.perTransfer + count.toNat) / st.perTransfer ≤
      sector.toNat % st.perTransfer + count.toNat := Nat.div_le_self _ _
  have hceil := ceil_eq (r := sector.toNat % st.perTransfer) (c := count.toNat) hpos
  change _ = ((blockCount st.perTransfer sector.toNat count.toNat : Nat) : Int) at hceil
  have hblocks : blockCount st.perTransfer sector.toNat count.toNat < 2 ^ 31 := by
    have hself : blockCount st.perTransfer sector.toNat count.toNat ≤
        sector.toNat % st.perTransfer + count.toNat + (st.perTransfer - 1) := Nat.div_le_self _ _
    omega
  apply toNat_eq_of_toInt hblocks
  unfold sddfCount
  simp only [← hheadDef, ← htailDef]
  have hone : ((if head ≠ 0 then (1 : BitVec 32) else 0) + if tail ≠ 0 then 1 else 0).toInt =
      (if head ≠ 0 then 1 else 0) + if tail ≠ 0 then 1 else 0 := by
    rw [toInt_add_exact, toInt_ite_one, toInt_ite_one]
    all_goals
      rw [toInt_ite_one, toInt_ite_one]
      split <;> split <;> omega
  rw [toInt_add_exact, hone, hdiv]
  · simp only [ne_zero_iff_toNat, hhead, htail]
    exact hceil
  all_goals
    rw [hone, hdiv]
    simp only [ne_zero_iff_toNat, hhead, htail]
    rw [hceil]
    omega

/-! ## Where the blocks of some sectors are -/

/-- The first byte of the first transfer block. -/
def blockStart : Nat := firstBlock st.perTransfer sector.toNat * st.transferSize

/-- The bytes of all transfer blocks. -/
def blockBytes : Nat :=
  blockCount st.perTransfer sector.toNat count.toNat * st.transferSize

theorem blockStart_add :
    st.blockStart sector + st.sectorOffset sector = st.sectorSize * sector.toNat := by
  have hdiv := firstBlock_mul st.perTransfer sector.toNat
  rw [sectorOffset_eq]
  unfold blockStart
  rw [← st.sectorSize_mul, Nat.mul_comm (firstBlock _ _), Nat.mul_assoc, ← Nat.mul_add, hdiv]

theorem sectorOffset_lt : st.sectorOffset sector < st.transferSize := by
  rw [sectorOffset_eq, ← st.sectorSize_mul]
  exact Nat.mul_lt_mul_of_pos_left (Nat.mod_lt _ st.perTransfer_pos) st.sectorSize_pos

theorem blockBytes_eq : st.blockBytes sector count =
    st.sectorSize * (st.perTransfer * blockCount st.perTransfer sector.toNat count.toNat) := by
  unfold blockBytes
  rw [← st.sectorSize_mul, Nat.mul_comm (blockCount _ _ _), Nat.mul_assoc]

theorem le_blockBytes :
    st.sectorOffset sector + st.sectorSize * count.toNat ≤ st.blockBytes sector count := by
  rw [sectorOffset_eq, blockBytes_eq, ← Nat.mul_add]
  exact Nat.mul_le_mul_left _ (le_blockCount_mul st.perTransfer_pos)

theorem blockBytes_lt : st.blockBytes sector count <
    st.sectorOffset sector + st.sectorSize * count.toNat + st.transferSize := by
  rw [sectorOffset_eq, blockBytes_eq, ← st.sectorSize_mul, ← Nat.mul_add, ← Nat.mul_add]
  exact Nat.mul_lt_mul_of_pos_left (blockCount_mul_lt st.perTransfer_pos) st.sectorSize_pos

/-- Neither end is unaligned exactly when the sectors fill their blocks. -/
theorem unaligned_zero_iff :
    (st.unalignedHeadSector sector = 0 ∧ st.unalignedTailSector sector count = 0) ↔
      sector.toNat % st.perTransfer = 0 ∧ count.toNat % st.perTransfer = 0 := by
  have hpos := st.perTransfer_pos
  have hmod := Nat.mod_lt sector.toNat hpos
  have hzero : ∀ x : BitVec 32, x = 0 ↔ x.toNat = 0 := fun x => by
    rw [← BitVec.toNat_inj]
    rfl
  rw [hzero, hzero, toNat_unalignedHeadSector, toNat_unalignedTailSector]
  constructor
  · intro h
    have hsector : sector.toNat % st.perTransfer = 0 := by
      by_contra hne
      have hhead := h.1
      rw [Nat.mod_eq_of_lt (by omega)] at hhead
      omega
    have htail := h.2
    rw [Nat.add_mod, hsector, Nat.zero_add, Nat.mod_mod] at htail
    exact ⟨hsector, htail⟩
  · intro h
    rw [h.1, Nat.sub_zero, Nat.mod_self, Nat.add_mod, h.1, h.2]
    simp

theorem blockBytes_of_aligned (hs : sector.toNat % st.perTransfer = 0)
    (hc : count.toNat % st.perTransfer = 0) :
    st.sectorOffset sector = 0 ∧ st.blockBytes sector count = st.sectorSize * count.toNat := by
  rw [sectorOffset_eq, blockBytes_eq, hs, blockCount_of_aligned st.perTransfer_pos hs hc]
  exact ⟨rfl, rfl⟩

theorem assertFits_iff {n : BitVec 32} (hn : n.toNat * st.transferSize < 2 ^ 31) :
    st.assertFits n = true ↔ n.toNat * st.transferSize ≤ st.maxClusterSize := by
  have ht := st.transfer_lt
  have hmul : (mulPowerOf2 n st.blkTransferSize).toNat = n.toNat * st.transferSize := by
    unfold mulPowerOf2 blkTransferSize transferSize
    rw [ctz_two_pow (by omega), BitVec.toNat_shiftLeft, Nat.shiftLeft_eq]
    exact Nat.mod_eq_of_lt (by unfold transferSize at hn; omega)
  have hmsb : (mulPowerOf2 n st.blkTransferSize).msb = false := by
    rw [BitVec.msb_eq_false_iff_two_mul_lt, hmul]
    omega
  unfold assertFits
  rw [decide_eq_true_iff, BitVec.signExtend_eq_setWidth_of_msb_false hmsb,
    BitVec.toNat_setWidth_of_le (by decide), hmul]

theorem assertFitsDirect_iff {n : BitVec 32} (hn : n.toNat * st.transferSize < 2 ^ 31) :
    st.assertFitsDirect n = true ↔ n.toNat * st.transferSize ≤ st.maxClusterSize := by
  have ht := st.transfer_lt
  unfold assertFitsDirect mulPowerOf2 blkTransferSize transferSize
  unfold transferSize at hn
  rw [decide_eq_true_iff, ctz_two_pow (by omega), BitVec.toNat_shiftLeft, Nat.shiftLeft_eq,
    Nat.mod_eq_of_lt (by omega)]

end Storage

namespace Storage

variable (st : Storage) (sector count : BitVec 32)

/-- The request is for the smallest run of transfer blocks that contains the sectors. -/
def Smallest (req : BlkReq) : Prop :=
  req.block * st.transferSize ≤ st.sectorSize * sector.toNat ∧
    st.sectorSize * sector.toNat < (req.block + 1) * st.transferSize ∧
    st.sectorSize * (sector.toNat + count.toNat) ≤ (req.block + req.count) * st.transferSize ∧
    (req.block + req.count) * st.transferSize <
      st.sectorSize * (sector.toNat + count.toNat) + st.transferSize

/-- The sectors are all that the request is for. -/
def Filled (req : BlkReq) : Prop :=
  req.block * st.transferSize = st.sectorSize * sector.toNat ∧
    req.count * st.transferSize = st.sectorSize * count.toNat

instance (req : BlkReq) : Decidable (st.Filled sector count req) :=
  inferInstanceAs (Decidable (_ ∧ _))

end Storage

section Requests

variable (st : Storage) (handle : Nat) (sector count : BitVec 32)

theorem sddfReq_smallest (code : BlkCode) (hc : count.toNat < 2 ^ 30) :
    st.Smallest sector count (sddfReq st handle code sector count) ∧
      (st.Filled sector count (sddfReq st handle code sector count) ↔
        st.unalignedHeadSector sector = 0 ∧ st.unalignedTailSector sector count = 0) := by
  have hstart := st.blockStart_add sector
  have hoff := st.sectorOffset_lt sector
  have hle := st.le_blockBytes sector count
  have hlt := st.blockBytes_lt sector count
  have hblock : (sddfReq st handle code sector count).block * st.transferSize =
      st.blockStart sector := by
    rw [sddfReq, st.toNat_sddfSector]
    rfl
  have hcount : (sddfReq st handle code sector count).count * st.transferSize =
      st.blockBytes sector count := by
    rw [sddfReq, st.toNat_sddfCount sector count hc]
    rfl
  unfold Storage.Smallest Storage.Filled
  rw [Nat.add_mul, Nat.add_mul, Nat.one_mul, hblock, hcount, Nat.mul_add, st.unaligned_zero_iff]
  refine ⟨⟨by omega, by omega, by omega, by omega⟩, ?_⟩
  constructor
  · intro h
    have hzero : st.sectorOffset sector = 0 := by omega
    have hbytes := h.2
    rw [st.sectorOffset_eq] at hzero
    rw [st.blockBytes_eq] at hbytes
    have hsector := (Nat.mul_eq_zero.mp hzero).resolve_left (Nat.ne_of_gt st.sectorSize_pos)
    have hcountMod := Nat.eq_of_mul_eq_mul_left st.sectorSize_pos hbytes
    exact ⟨hsector, by rw [← hcountMod, Nat.mul_mod_right]⟩
  · intro h
    obtain ⟨hzero, hbytes⟩ := st.blockBytes_of_aligned sector count h.1 h.2
    exact ⟨by omega, hbytes⟩

/-- Where a sector is a transfer block, the sectors are the request. -/
theorem directReq_smallest (heq : st.sectorSize = st.transferSize) (req : BlkReq)
    (hblock : req.block = sector.toNat) (hcount : req.count = count.toNat) :
    st.Smallest sector count req ∧ st.Filled sector count req := by
  have hpos := st.sectorSize_pos
  unfold Storage.Smallest Storage.Filled
  rw [hblock, hcount, ← heq, Nat.add_mul, Nat.add_mul, Nat.mul_add, Nat.one_mul,
    Nat.mul_comm sector.toNat, Nat.mul_comm count.toNat]
  exact ⟨⟨Nat.le_refl _, by omega, Nat.le_refl _, by omega⟩, rfl, rfl⟩

/--
The first request of a read or write of some sectors is for the smallest run of
transfer blocks that contains them. A write sends its data at once when the
sectors are all of it, and else it first reads the blocks that it then writes.
-/
theorem disk_requests_smallest (buff : List UInt8) (data : Nat → UInt8)
    (hc : count.toNat < 2 ^ 30) :
    (∀ data' req wait, diskRead st handle sector count data = some (.waits data' req wait) →
      req.code = .read ∧ st.Smallest sector count req) ∧
    ∀ data' req wait, diskWrite st handle sector count buff data = some (.waits data' req wait) →
      st.Smallest sector count req ∧
        if st.Filled sector count req then req.code = .write
        else req.code = .read ∧ ∀ d, ∃ d',
          resume st handle d wait 0 =
            .waits d' { req with code := .write } (.write sector count buff) := by
  constructor
  · intro data' req wait h
    unfold diskRead at h
    split at h
    · cases h
      exact ⟨rfl, (sddfReq_smallest st handle sector count .read hc).1⟩
    · cases h
  · intro data' req wait h
    unfold diskWrite at h
    by_cases heq : st.sectorSize = st.transferSize
    · rw [if_pos heq] at h
      split at h
      · cases h
        have hdirect := directReq_smallest st sector count heq
          ⟨.write, st.threadBlkAddr (handle - 1), sector.toNat, count.toNat, handle⟩ rfl rfl
        refine ⟨hdirect.1, ?_⟩
        rw [if_pos hdirect.2]
      · cases h
    · rw [if_neg heq] at h
      split at h
      · by_cases hends : st.unalignedHeadSector sector = 0 ∧
            st.unalignedTailSector sector count = 0
        · rw [if_pos hends] at h
          cases h
          obtain ⟨hsmall, hfill⟩ := sddfReq_smallest st handle sector count .write hc
          refine ⟨hsmall, ?_⟩
          rw [if_pos (hfill.mpr hends)]
          rfl
        · rw [if_neg hends] at h
          cases h
          obtain ⟨hsmall, hfill⟩ := sddfReq_smallest st handle sector count .read hc
          refine ⟨hsmall, ?_⟩
          rw [if_neg fun hf => hends (hfill.mp hf)]
          exact ⟨rfl, fun d => ⟨_, rfl⟩⟩
      · cases h

end Requests

/-- Sectors of 512 bytes, eight of them in a transfer block. -/
def smallSectors : Storage := ⟨12, 9, 65536, by decide, by decide⟩

/-- Three sectors across the end of the first block are written after a read of two blocks. -/
theorem disk_requests_smallest_demo : ∃ data req wait,
    diskWrite smallSectors 1 7 3 [] (fun _ => 0) = some (.waits data req wait) ∧
      req.code = .read ∧ req.block = 0 ∧ req.count = 2 ∧
        512 * (7 + 3) ≤ (req.block + req.count) * 4096 := by
  have hwrite : diskWrite smallSectors 1 7 3 [] (fun _ => 0) =
      some (.waits (fun _ => 0) (sddfReq smallSectors 1 .read 7 3) (.modify 7 3 [])) := rfl
  obtain ⟨-, -, hcovers, -⟩ :=
    ((disk_requests_smallest smallSectors 1 7 3 [] (fun _ => 0) (by decide)).2 _ _ _ hwrite).1
  exact ⟨_, _, _, hwrite, rfl, by decide, by decide, hcovers⟩

end Smos.Fat
