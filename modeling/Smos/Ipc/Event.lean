/-
Smos.Ipc.Event — what a badge says about the event a server woke up for.

The top bit tells a notification from an endpoint. The other 63 bits of a
notification's badge are the signalled bits, and `NtfnWordIterator` takes
them from the lowest to the highest. Below the top bits of an endpoint's
badge is the pid of the process that invoked or faulted.

The kernel delivers the OR of the badges that were signalled since the
last delivery (`ntfnWord`).
-/
import Mathlib.Data.BitVec
import Mathlib.Data.List.Basic
import Mathlib.Tactic.Common

namespace Smos.Ipc

/-! ## The badge constants -/

/-- `NTFN_BIT`. -/
def ntfnBit : BitVec 64 := 1 <<< 63

/-- `IRQ_IDENT_BADGE_BITS`. -/
def irqIdentBadgeBits : BitVec 64 := 1 <<< 63 - 1

/-- `EP_TYPE_SHIFT`. -/
def epTypeShift : Nat := 62

/-- `INVOCATION_VALUE`. -/
def invocationValue : BitVec 64 := 0

/-- `FAULT_VALUE`. -/
def faultValue : BitVec 64 := 1

/-! ## Decoding -/

inductive EntryType where
  | invocation (pid : BitVec 64)
  | fault (pid : BitVec 64)
  | notification (word : BitVec 64)
  deriving DecidableEq, Repr

/-- `decode_entry_type`; `none` is its panic. -/
def decodeEntryType (badge : BitVec 64) : Option EntryType :=
  if badge &&& ntfnBit ≠ 0 then
    some (.notification (badge &&& ~~~ ntfnBit))
  else
    let pid := badge &&& ~~~ ((3 : BitVec 64) <<< epTypeShift)
    let kind := (badge >>> epTypeShift) &&& 1
    if kind = invocationValue then some (.invocation pid)
    else if kind = faultValue then some (.fault pid)
    else none

/-- `NtfnWordIterator::next`: the bit, and the word that is left. -/
def NtfnWordIterator.next (word : BitVec 64) : Option (Nat × BitVec 64) :=
  if word = 0 then none
  else
    let bit := word.ctz.toNat
    some (bit, word &&& ~~~ BitVec.twoPow 64 bit)

/-- The bit that is yielded was set, and it alone is cleared. -/
theorem NtfnWordIterator.next_some {word rest : BitVec 64} {bit : Nat}
    (h : next word = some (bit, rest)) :
    word.getLsbD bit = true ∧ (∀ j < bit, word.getLsbD j = false) ∧
      ∀ j, rest.getLsbD j = (word.getLsbD j && decide (j ≠ bit)) := by
  unfold next at h
  split at h
  · cases h
  · next hne =>
    cases h
    refine ⟨BitVec.getLsbD_true_ctz_of_ne_zero hne,
      fun j hj => BitVec.getLsbD_false_of_lt_ctz hj, fun j => ?_⟩
    by_cases hj : j < 64
    · by_cases heq : j = word.ctz.toNat
      · subst heq
        simp
      · simp [hj, heq]
    · simp [BitVec.getLsbD_of_ge word j (by omega)]

theorem NtfnWordIterator.next_lt {word rest : BitVec 64} {bit : Nat}
    (h : next word = some (bit, rest)) : rest.toNat < word.toNat := by
  obtain ⟨hset, -, hrest⟩ := next_some h
  have hle : rest.toNat ≤ word.toNat := by
    unfold next at h
    split at h <;> cases h
    rw [BitVec.toNat_and]
    exact Nat.and_le_left
  have hne : rest ≠ word := by
    intro heq
    have hclear := hrest bit
    rw [heq, hset] at hclear
    simp at hclear
  have : rest.toNat ≠ word.toNat := fun heq => hne (BitVec.eq_of_toNat_eq heq)
  omega

/-- `for bit in word`: what the iterator of a notification word yields. -/
def ntfnWordBits (word : BitVec 64) : List Nat :=
  match _h : NtfnWordIterator.next word with
  | none => []
  | some (bit, rest) => bit :: ntfnWordBits rest
termination_by word.toNat
decreasing_by exact NtfnWordIterator.next_lt _h

theorem mem_ntfnWordBits (word : BitVec 64) (b : Nat) :
    b ∈ ntfnWordBits word ↔ word.getLsbD b = true := by
  induction word using ntfnWordBits.induct with
  | case1 word h =>
    rw [ntfnWordBits]
    split
    · unfold NtfnWordIterator.next at h
      split at h
      · next hzero => simp [hzero]
      · cases h
    · next heq => rw [h] at heq; cases heq
  | case2 word bit rest h ih =>
    obtain ⟨hset, -, hrest⟩ := NtfnWordIterator.next_some h
    rw [ntfnWordBits]
    split
    · next heq => rw [h] at heq; cases heq
    · next heq =>
      rw [h] at heq
      cases heq
      rw [List.mem_cons, ih, hrest b]
      by_cases hb : b = bit
      · simp [hb, hset]
      · simp [hb]

/-- The bits come from the lowest to the highest, each of them once. -/
theorem ntfnWordBits_sorted (word : BitVec 64) : (ntfnWordBits word).Pairwise (· < ·) := by
  induction word using ntfnWordBits.induct with
  | case1 word h =>
    rw [ntfnWordBits]
    split
    · exact .nil
    · next heq => rw [h] at heq; cases heq
  | case2 word bit rest h ih =>
    obtain ⟨-, hlow, hrest⟩ := NtfnWordIterator.next_some h
    rw [ntfnWordBits]
    split
    · next heq => rw [h] at heq; cases heq
    · next heq =>
      rw [h] at heq
      cases heq
      refine .cons (fun b hb => ?_) ih
      have hb' := (mem_ntfnWordBits rest b).mp hb
      rw [hrest b, Bool.and_eq_true, decide_eq_true_eq] at hb'
      by_contra hlt
      have hclear := hlow b (by omega)
      rw [hb'.1] at hclear
      cases hclear

theorem ntfnWordBits_nodup (word : BitVec 64) : (ntfnWordBits word).Nodup :=
  (ntfnWordBits_sorted word).imp fun h => Nat.ne_of_lt h

/-! ## Delivery -/

/-- What the kernel delivers when capabilities with these badges have been signalled. -/
def ntfnWord (badges : List Nat) : BitVec 64 :=
  badges.foldr (fun badge word => BitVec.ofNat 64 badge ||| word) 0

theorem ntfnWord_getLsbD (badges : List Nat) {j : Nat} (hj : j < 64) :
    (ntfnWord badges).getLsbD j = true ↔ ∃ badge ∈ badges, badge.testBit j = true := by
  induction badges with
  | nil => simp [ntfnWord]
  | cons badge badges ih =>
    rw [ntfnWord, List.foldr_cons, BitVec.getLsbD_or, Bool.or_eq_true, ← ntfnWord, ih,
      BitVec.getLsbD_ofNat, decide_eq_true hj, Bool.true_and]
    simp

theorem ntfnBit_eq : ntfnBit = BitVec.twoPow 64 63 := by decide

/-- A word with the top bit decodes to a notification with the other bits. -/
theorem decodeEntryType_notification {badge : BitVec 64} (h : badge.getLsbD 63 = true) :
    ∃ word, decodeEntryType badge = some (.notification word) ∧
      ∀ j, word.getLsbD j = (badge.getLsbD j && decide (j ≠ 63)) := by
  have hmask : badge &&& ntfnBit ≠ 0 := by
    intro hzero
    have hbit := congrArg (fun word => BitVec.getLsbD word 63) hzero
    rw [ntfnBit_eq, BitVec.getLsbD_and, h, BitVec.getLsbD_twoPow] at hbit
    simp at hbit
  refine ⟨badge &&& ~~~ ntfnBit, by rw [decodeEntryType, if_pos hmask], fun j => ?_⟩
  rw [ntfnBit_eq]
  by_cases hj : j < 64
  · by_cases heq : j = 63
    · simp [heq]
    · simp [hj, heq]
  · simp [BitVec.getLsbD_of_ge badge j (by omega)]

/-- A word without the top bit decodes by its second bit, with the pid below. -/
theorem decodeEntryType_endpoint {badge pid : BitVec 64} (h : badge.getLsbD 63 = false)
    (hpid : ∀ j < 64, pid.getLsbD j = (badge.getLsbD j && decide (j < 62))) :
    decodeEntryType badge =
      some (if badge.getLsbD 62 = true then .fault pid else .invocation pid) := by
  have hmask : badge &&& ntfnBit = 0 := by
    refine BitVec.eq_of_getLsbD_eq fun j hj => ?_
    rw [ntfnBit_eq, BitVec.getLsbD_and, BitVec.getLsbD_twoPow]
    by_cases heq : j = 63
    · rw [heq, h, Bool.false_and]
      rfl
    · simp [Ne.symm (a := j) heq]
  have hlow : badge &&& ~~~ ((3 : BitVec 64) <<< epTypeShift) = pid := by
    refine BitVec.eq_of_getLsbD_eq fun j hj => ?_
    have hthree : ((3 : BitVec 64) <<< epTypeShift) = BitVec.twoPow 64 62 ||| BitVec.twoPow 64 63 := by
      decide
    rw [hthree, hpid j hj, BitVec.getLsbD_and, BitVec.getLsbD_not, BitVec.getLsbD_or,
      BitVec.getLsbD_twoPow, BitVec.getLsbD_twoPow]
    congr 1
    simp only [hj, decide_true, Bool.true_and]
    by_cases hlt : j < 62
    · simp [hlt, show ¬ 62 = j by omega, show ¬ 63 = j by omega]
    · have hhigh : ¬ 62 = j → 63 = j := by omega
      simpa [hlt] using hhigh
  have hkind : (badge >>> epTypeShift) &&& 1 = if badge.getLsbD 62 = true then 1 else 0 := by
    refine BitVec.eq_of_getLsbD_eq fun j hj => ?_
    rw [BitVec.getLsbD_and, BitVec.getLsbD_ushiftRight]
    by_cases hzero : j = 0
    · subst hzero
      rw [epTypeShift, Nat.add_zero]
      cases badge.getLsbD 62 <;> rfl
    · have hone : (1 : BitVec 64).getLsbD j = false := by simp [BitVec.getLsbD_one, hzero]
      rw [hone, Bool.and_false]
      split
      · exact hone.symm
      · simp
  rw [decodeEntryType, if_neg (by simp [hmask])]
  simp only [hlow, hkind]
  cases badge.getLsbD 62 <;> simp [invocationValue, faultValue]

end Smos.Ipc
