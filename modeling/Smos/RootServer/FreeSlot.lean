/-
Smos.RootServer.FreeSlot — `free_slot` of the three kinds of cspaces, for
every slot number.

Each of them compares the number with a capacity before it touches its bit
field. The one-level cspaces let the number past that is equal to it. The
two-level one adds up the sizes of a cnode and of the top level in bits but
takes off the bits of a slot only once, so its bound is 32 times its
capacity; and it clears the top-level bit before it knows whether there is
a cnode.

The null slot is no slot of the root server's cspaces: they never hand it
out, and `free_slot` returns at once.
-/
import Smos.RootServer.SlotSet
import Smos.RootServer.UserCSpace

namespace Smos.RootServer

open Smos.Base

/-! ## What freeing a slot should do -/

/-- The bit is cleared, and no other. -/
def Cleared (bf : Bitfield) (c : Nat) (bf' : Bitfield) : Prop :=
  bf'.length = bf.length ∧ ∀ i, bf'.Has i ↔ bf.Has i ∧ i ≠ c

/-- A slot of the one-level cspace is freed, and for any other number nothing changes. -/
def OneLevel.FreesExactly (us : OneLevel) (c : Slot) : Prop :=
  ∃ us', OneLevel.freeSlot c us = .ok () us' ∧
    if c ≠ 0 ∧ c < 2 ^ cnodeSlotBits us.topLvlSizeBits then
      us'.topLvlSizeBits = us.topLvlSizeBits ∧ Cleared us.topBf c us'.topBf
    else us' = us

/-- The same of the process's own cspace, which has a slot 0. -/
def SmosUserCSpace.FreesExactly (us : SmosUserCSpace) (c : Slot) : Prop :=
  ∃ us', SmosUserCSpace.freeSlot c us = .ok () us' ∧
    if c < cspaceSize then Cleared us.bf c us'.bf else us' = us

/-- And of the two-level cspace: only slots of created cnodes are freed. -/
def CSpace.FreesExactly (cs : CSpace) (c : Slot) : Prop :=
  ∃ cs', (CSpace.freeSlot c : Prog Panic CSpace Empty Unit) cs = .ok () cs' ∧
    if c ≠ 0 ∧ cs.Created (CSpace.topLvlIndex c) then cs.Gives c cs' else cs' = cs

section Exact

variable {us : OneLevel} {user : SmosUserCSpace} {cs : CSpace} {c : Slot}

theorem cleared_of_bfClrBit {bf bf' : Bitfield} (h : bf.bfClrBit c = some bf') : Cleared bf c bf' :=
  ⟨Bitfield.bfClrBit_length h, Bitfield.bfClrBit_has h⟩

theorem inRange_iff {bf : Bitfield} (hlen : bf.length = 4) : bf.InRange c ↔ c < 256 := by
  unfold Bitfield.InRange wordIndex wordBits
  rw [hlen]
  exact Nat.div_lt_iff_lt_mul (by decide)

/-- Past the end of the field there is nothing to clear. -/
theorem bfClrBit_none {bf : Bitfield} (h : ¬ bf.InRange c) : bf.bfClrBit c = none := by
  unfold Bitfield.InRange at h
  unfold Bitfield.bfClrBit
  rw [List.getElem?_eq_none (Nat.le_of_not_lt h), Option.map_none]

/-- The one-level cspace of a process. -/
theorem oneLevel_exact_iff (h : UserSlots.Field256 us) (c : Slot) :
    us.FreesExactly c ↔ c ≠ 256 := by
  have hcap : 2 ^ cnodeSlotBits us.topLvlSizeBits = 256 := by rw [h.bits]; rfl
  unfold OneLevel.FreesExactly
  rw [hcap]
  rcases Nat.eq_zero_or_pos c with rfl | hpos
  · exact iff_of_true ⟨us, rfl, by simp⟩ (by decide)
  have hzero : ¬ c = 0 := Nat.ne_of_gt hpos
  rcases Nat.lt_trichotomy c 256 with hlt | rfl | hgt
  · -- a slot
    obtain ⟨bf, hclr⟩ := Bitfield.bfClrBit_inRange ((inRange_iff h.length).mpr hlt)
    refine iff_of_true ⟨{ us with topBf := bf }, ?_, ?_⟩ (Nat.ne_of_lt hlt)
    · unfold OneLevel.freeSlot
      rw [Prog.gets_bind, hcap, if_neg hzero, if_neg (Nat.lt_asymm hlt), Prog.gets_bind, hclr]
      rfl
    · rw [if_pos ⟨hzero, hlt⟩]
      exact ⟨rfl, cleared_of_bfClrBit hclr⟩
  · -- the first number past the capacity
    refine iff_of_false ?_ (fun h => h rfl)
    rintro ⟨us', hok, -⟩
    have hnone : us.topBf.bfClrBit 256 = none :=
      bfClrBit_none fun hin => absurd ((inRange_iff h.length).mp hin) (Nat.lt_irrefl 256)
    have hpanic : OneLevel.freeSlot 256 us = .panic .indexOutOfBounds := by
      unfold OneLevel.freeSlot
      rw [Prog.gets_bind, hcap, if_neg (by decide), if_neg (by decide), Prog.gets_bind, hnone]
      rfl
    rw [hpanic] at hok
    cases hok
  · refine iff_of_true ⟨us, ?_, ?_⟩ (Nat.ne_of_gt hgt)
    · unfold OneLevel.freeSlot
      rw [Prog.gets_bind, hcap, if_neg hzero, if_pos hgt]
      rfl
    · rw [if_neg fun h => Nat.lt_asymm hgt h.2]

/-- The process's own. -/
theorem smosUser_exact_iff (h : user.bf.length = 4) (c : Slot) :
    user.FreesExactly c ↔ c ≠ 256 := by
  have hsize : cspaceSize = 256 := rfl
  unfold SmosUserCSpace.FreesExactly
  rw [hsize]
  rcases Nat.lt_trichotomy c 256 with hlt | rfl | hgt
  · obtain ⟨bf, hclr⟩ := Bitfield.bfClrBit_inRange ((inRange_iff h).mpr hlt)
    refine iff_of_true ⟨⟨bf⟩, ?_, ?_⟩ (Nat.ne_of_lt hlt)
    · unfold SmosUserCSpace.freeSlot
      rw [hsize, if_neg (Nat.lt_asymm hlt), Prog.gets_bind, hclr]
      rfl
    · rw [if_pos hlt]
      exact cleared_of_bfClrBit hclr
  · refine iff_of_false ?_ (fun h => h rfl)
    rintro ⟨us', hok, -⟩
    have hnone : user.bf.bfClrBit 256 = none :=
      bfClrBit_none fun hin => absurd ((inRange_iff h).mp hin) (Nat.lt_irrefl 256)
    have hpanic : SmosUserCSpace.freeSlot 256 user = .panic .indexOutOfBounds := by
      unfold SmosUserCSpace.freeSlot
      rw [hsize, if_neg (by decide), Prog.gets_bind, hnone]
      rfl
    rw [hpanic] at hok
    cases hok
  · refine iff_of_true ⟨user, ?_, ?_⟩ (Nat.ne_of_gt hgt)
    · unfold SmosUserCSpace.freeSlot
      rw [hsize, if_pos hgt]
      rfl
    · rw [if_neg (Nat.lt_asymm hgt)]

/-! ## The two-level cspace -/

/-- The null slot, a slot of a created cnode, a number that the check refuses, or a slot of a cnode
that is not there and not marked either. -/
def CSpace.Harmless (cs : CSpace) (c : Slot) : Prop :=
  c = 0 ∨ cs.Created (CSpace.topLvlIndex c) ∨ cs.topLvlSlots * cnodeSlots * 32 < c ∨
    CSpace.topLvlIndex c < cs.topLvlSlots ∧ ¬ cs.topBf.Has (CSpace.topLvlIndex c)

instance (cs : CSpace) (c : Slot) : Decidable (cs.Harmless c) :=
  inferInstanceAs (Decidable (_ ∨ _ ∨ _ ∨ _ ∧ _))

/-- Without a cnode, what happens is decided by the top level alone. -/
theorem freeSlot_uncreated (h0 : ¬ c = 0) (hc : ¬ cs.Created (CSpace.topLvlIndex c))
    (hle : ¬ cs.topLvlSlots * cnodeSlots * 32 < c) :
    (CSpace.freeSlot c : Prog Panic CSpace Empty Unit) cs =
      match cs.topBf.bfClrBit (CSpace.topLvlIndex c) with
      | some topBf => .ok () { cs with topBf := topBf }
      | none => .panic .indexOutOfBounds := by
  have hnone : cs.botLvl c = none := by
    by_contra hne
    exact hc (CSpace.created_iff.mpr (Option.ne_none_iff_exists'.mp hne))
  unfold CSpace.freeSlot
  rw [Prog.gets_bind, if_neg h0, if_neg hle, Prog.gets_bind]
  cases hclr : cs.topBf.bfClrBit (CSpace.topLvlIndex c) with
  | none => rfl
  | some topBf =>
    have hlvl : ({ cs with topBf := topBf } : CSpace).botLvl c = none := hnone
    refine Prog.eq_ok_of_wp ?_
    simp only [Prog.wp_bind, Prog.wp_unwrap, Prog.wp_modify, Prog.wp_gets, hlvl, Prog.wp_pure,
      Option.some.injEq, forall_eq', reduceCtorEq, false_implies, and_true]

theorem twoLevel_exact_iff (h : cs.Sized) (c : Slot) : cs.FreesExactly c ↔ cs.Harmless c := by
  unfold CSpace.FreesExactly CSpace.Harmless
  by_cases h0 : c = 0
  · subst h0
    exact iff_of_true ⟨cs, rfl, by simp⟩ (.inl rfl)
  by_cases hc : cs.Created (CSpace.topLvlIndex c)
  · obtain ⟨cs', hok, hgives⟩ := CSpace.freeSlot_gives Empty h h0 hc
    refine iff_of_true ⟨cs', hok, ?_⟩ (.inr (.inl hc))
    rwa [if_pos ⟨h0, hc⟩]
  by_cases hgt : cs.topLvlSlots * cnodeSlots * 32 < c
  · refine iff_of_true ⟨cs, ?_, ?_⟩ (.inr (.inr (.inl hgt)))
    · unfold CSpace.freeSlot
      rw [Prog.gets_bind, if_neg h0, if_pos hgt]
      rfl
    · rw [if_neg fun h => hc h.2]
  rw [freeSlot_uncreated h0 hc hgt, or_iff_right h0, or_iff_right hc, or_iff_right hgt]
  simp only [hc, and_false, if_false]
  by_cases hin : CSpace.topLvlIndex c < cs.topLvlSlots
  · obtain ⟨topBf, hclr⟩ := Bitfield.bfClrBit_inRange (h.inRange hin)
    rw [hclr]
    constructor
    · rintro ⟨cs', hok, heq⟩
      have hsame : topBf = cs.topBf := by
        injection hok with _ hstate
        exact congrArg CSpace.topBf (hstate.trans heq)
      exact ⟨hin, fun hhas => ((Bitfield.bfClrBit_has hclr _).mp (hsame ▸ hhas)).2 rfl⟩
    · rintro ⟨-, hclear⟩
      have hsame := Bitfield.bfClrBit_of_clear (h.inRange hin) hclear
      obtain rfl := Option.some.inj (hclr.symm.trans hsame)
      exact ⟨cs, rfl, rfl⟩
  · have hnone : cs.topBf.bfClrBit (CSpace.topLvlIndex c) = none :=
      bfClrBit_none fun hr => hin (h.lt_of_inRange hr)
    rw [hnone]
    refine iff_of_false ?_ (fun h => hin h.1)
    rintro ⟨cs', hok, -⟩
    cases hok

/-- What `free_slot` does of all slot numbers in the three cspaces. -/
theorem freeSlot_exact_iff (hus : UserSlots.Field256 us) (huser : user.bf.length = 4)
    (hcs : cs.Sized) (c : Slot) : (us.FreesExactly c ↔ c ≠ 256) ∧
      (user.FreesExactly c ↔ c ≠ 256) ∧ (cs.FreesExactly c ↔ cs.Harmless c) :=
  ⟨oneLevel_exact_iff hus c, smosUser_exact_iff huser c, twoLevel_exact_iff hcs c⟩

/-- The last slots of new one-level cspaces, and the last slot of the only cnode. -/
theorem freeSlot_exact_last : (UserSlots.new fun _ => none).root.FreesExactly 255 ∧
    SmosUserCSpace.new.FreesExactly 255 ∧ CSpace.fresh.FreesExactly 255 := by
  obtain ⟨hroot, huser, hcs⟩ := freeSlot_exact_iff (UserSlots.new_sized fun _ => none).root
    (UserSlots.new_sized fun _ => none).user CSpace.fresh_wellFormed.sized 255
  exact ⟨hroot.mpr (by decide), huser.mpr (by decide), hcs.mpr (by decide)⟩

/-- The first number past the capacity is an index out of bounds in all three. -/
theorem freeSlot_exact_not : ¬ (UserSlots.new fun _ => none).root.FreesExactly 256 ∧
    ¬ SmosUserCSpace.new.FreesExactly 256 ∧ ¬ CSpace.fresh.FreesExactly (64 * 256) := by
  refine ⟨fun h => ?_, fun h => ?_, fun h => ?_⟩
  · exact (oneLevel_exact_iff (UserSlots.new_sized fun _ => none).root 256).mp h rfl
  · exact (smosUser_exact_iff (UserSlots.new_sized fun _ => none).user 256).mp h rfl
  · have hharmless := (twoLevel_exact_iff CSpace.fresh_wellFormed.sized (64 * 256)).mp h
    exact absurd hharmless (by decide)

end Exact

end Smos.RootServer
