/-
Smos.RootServer.SlotSet — the two-level slot allocator as a set of slots.

The allocator hands out the first clear bit of the first cnode whose
top-level bit is clear. It keeps the last slot of every cnode back: a cnode
is marked full when the first clear bit is the last one.

`Open` is what both directions rest on: a cnode whose top-level bit is
clear has a slot to hand out, and its last slot is not marked. A marked
last slot breaks it. Bootstrap leaves such cnodes, filled to the last slot;
once a slot of one is freed, `alloc_slot` marks the slot again, finds no
clear bit and answers an error with the slot marked.

`Takes` and `Gives` say all that a successful `alloc_slot` and a
`free_slot` do.
-/
import Mathlib.Data.Set.Insert
import Smos.Base.Run
import Smos.RootServer.CSpace

namespace Smos.RootServer.CSpace

open Smos.Base

variable {cs cs' : CSpace} {c c' : Slot} {t : Nat}

/-- The cnode with this top-level index has been created. -/
def Created (cs : CSpace) (t : Nat) : Prop := (cs.botLvl (t * cnodeSlots)).isSome = true

instance : Decidable (cs.Created t) := inferInstanceAs (Decidable (_ = _))

/-- The slot is the last one of its cnode. -/
def Last (c : Slot) : Prop := botLvlIndex c = cnodeSlots - 1

instance : Decidable (Last c) := inferInstanceAs (Decidable (_ = _))

/-- The last slot of the cnode that a slot lies in. -/
def lastOf (c : Slot) : Slot := topLvlIndex c * cnodeSlots + (cnodeSlots - 1)

/-- A slot of a created cnode that is not marked. -/
def Free (cs : CSpace) (c : Slot) : Prop := cs.Created (topLvlIndex c) ∧ ¬ cs.Allocated c

instance : Decidable (cs.Free c) := inferInstanceAs (Decidable (_ ∧ _))

/-- Every slot of the cnode but the last is allocated. -/
def Full (cs : CSpace) (t : Nat) : Prop := ∀ c, topLvlIndex c = t → ¬ Last c → cs.Allocated c

/-- A cnode that the top level does not mark as full can be allocated from. -/
def Open (cs : CSpace) : Prop :=
  ∀ t, cs.Created t → ¬ cs.topBf.Has t →
    ¬ cs.Full t ∧ ∀ c, topLvlIndex c = t → Last c → ¬ cs.Allocated c

/-! ## Slots and bits -/

theorem slot_split (c : Slot) : topLvlIndex c * cnodeSlots + botLvlIndex c = c := by
  unfold topLvlIndex botLvlIndex cnodeSlots
  omega

theorem botLvlIndex_lt (c : Slot) : botLvlIndex c < cnodeSlots := Nat.mod_lt _ (by decide)

theorem topLvlIndex_join {i : Nat} (h : i < cnodeSlots) : topLvlIndex (t * cnodeSlots + i) = t := by
  unfold topLvlIndex cnodeSlots at *
  omega

theorem botLvlIndex_join {i : Nat} (h : i < cnodeSlots) :
    botLvlIndex (t * cnodeSlots + i) = i := by
  unfold botLvlIndex cnodeSlots at *
  omega

theorem eq_of_indices (ht : topLvlIndex c = topLvlIndex c') (hb : botLvlIndex c = botLvlIndex c') :
    c = c' := by
  rw [← slot_split c, ht, hb, slot_split]

theorem lastOf_topLvlIndex (c : Slot) : topLvlIndex (lastOf c) = topLvlIndex c :=
  topLvlIndex_join (by decide)

theorem lastOf_last (c : Slot) : Last (lastOf c) := botLvlIndex_join (by decide)

/-- The only last slot of a cnode. -/
theorem Last.eq_lastOf (h : Last c) (ht : topLvlIndex c = topLvlIndex c') : c = lastOf c' := by
  refine eq_of_indices (ht.trans (lastOf_topLvlIndex c').symm) ?_
  exact h.trans (lastOf_last c').symm

theorem botLvl_topLvlIndex (cs : CSpace) (c : Slot) :
    cs.botLvl (topLvlIndex c * cnodeSlots) = cs.botLvl c := by
  refine botLvl_congr (Nat.mul_div_cancel _ ?_)
  decide

theorem created_iff : cs.Created (topLvlIndex c) ↔ ∃ b, cs.botLvl c = some b := by
  unfold Created
  rw [botLvl_topLvlIndex, Option.isSome_iff_exists]

theorem allocated_iff {b : BotLvl} (h : cs.botLvl c = some b) :
    cs.Allocated c ↔ b.bf.Has (botLvlIndex c) := by
  simp [Allocated, h]

theorem Allocated.created (h : cs.Allocated c) : cs.Created (topLvlIndex c) := by
  obtain ⟨b, hb, -⟩ := h
  exact created_iff.mpr ⟨b, hb⟩

theorem BotLvl.inRange {b : BotLvl} {i : Nat} (h : i < cnodeSlots) : b.bf.InRange i := by
  unfold Bitfield.InRange wordIndex wordBits
  rw [b.length_eq]
  unfold cnodeSlots at h
  omega

theorem BotLvl.setBit_some {b : BotLvl} {i : Nat} (h : i < cnodeSlots) :
    ∃ b', b.setBit i = some b' := by
  obtain ⟨bf, hbf⟩ := Bitfield.bfSetBit_inRange (BotLvl.inRange (b := b) h)
  unfold BotLvl.setBit
  split
  · exact ⟨_, rfl⟩
  · rename_i hn
    rw [hbf] at hn
    cases hn

theorem BotLvl.clrBit_some {b : BotLvl} {i : Nat} (h : i < cnodeSlots) :
    ∃ b', b.clrBit i = some b' := by
  obtain ⟨bf, hbf⟩ := Bitfield.bfClrBit_inRange (BotLvl.inRange (b := b) h)
  unfold BotLvl.clrBit
  split
  · exact ⟨_, rfl⟩
  · rename_i hn
    rw [hbf] at hn
    cases hn

theorem BotLvl.eq_of_bf {b b' : BotLvl} (h : b.bf = b'.bf) : b = b' := by
  cases b
  cases b'
  cases h
  rfl

/-- Clearing a bit that was just set. -/
theorem BotLvl.clrBit_setBit {b b' : BotLvl} {i : Nat} (hn : ¬ b.bf.Has i)
    (h : b.setBit i = some b') : b'.clrBit i = some b := by
  have hbf := Bitfield.bfClrBit_bfSetBit hn (BotLvl.setBit_bf h)
  unfold BotLvl.clrBit
  split
  · rename_i bf heq
    rw [hbf] at heq
    cases heq
    exact congrArg some (BotLvl.eq_of_bf rfl)
  · rename_i heq
    rw [hbf] at heq
    cases heq

/-- A cnode is full when the first clear bit is the last one. -/
theorem full_iff {b : BotLvl} {n : Nat} (hb : cs.botLvl c = some b)
    (hn : b.bf.bfFirstFree = some n) : cs.Full (topLvlIndex c) ↔ cnodeSlots - 1 ≤ n := by
  constructor
  · intro h
    refine Nat.le_of_not_lt fun hlt => ?_
    have hi : n < cnodeSlots := Nat.lt_of_lt_of_le hlt (by decide)
    have hlvl : cs.botLvl (topLvlIndex c * cnodeSlots + n) = some b := by
      rw [← botLvl_topLvlIndex, topLvlIndex_join hi, botLvl_topLvlIndex, hb]
    have hall := h _ (topLvlIndex_join hi) fun hl => by
      rw [Last, botLvlIndex_join hi] at hl
      exact absurd hl (Nat.ne_of_lt hlt)
    rw [allocated_iff hlvl, botLvlIndex_join hi] at hall
    exact (Bitfield.bfFirstFree_spec hn).2 hall
  · intro h c' ht hl
    have hlvl : cs.botLvl c' = some b := by
      rw [← botLvl_topLvlIndex, ht, botLvl_topLvlIndex, hb]
    rw [allocated_iff hlvl]
    refine Bitfield.bfFirstFree_least hn (Nat.lt_of_lt_of_le ?_ h)
    have := botLvlIndex_lt c'
    unfold Last at hl
    omega

/-! ## What the operations do -/

theorem created_setBotLvl {b₀ b : BotLvl} (h : cs.botLvl c = some b₀) (t : Nat) :
    (cs.setBotLvl c b).Created t ↔ cs.Created t := by
  unfold Created
  rw [botLvl_setBotLvl h]
  split
  · rename_i heq
    rw [(botLvl_congr heq).trans h]
    exact Iff.rfl
  · exact Iff.rfl

/-- Writing a cnode twice, the second time as it was. -/
theorem setBotLvl_restore {b : BotLvl} (b' : BotLvl) (h : cs.botLvl c = some b) :
    (cs.setBotLvl c b').setBotLvl c b = cs := by
  obtain ⟨node, hnode, hcn⟩ := Option.bind_eq_some_iff.mp h
  have hnodes : (cs.botLvlNodes.modify (nodeIndex c) fun node => node.set (cnodeIndex c) b').modify
      (nodeIndex c) (fun node => node.set (cnodeIndex c) b) = cs.botLvlNodes := by
    refine List.ext_getElem? fun i => ?_
    simp only [List.getElem?_modify]
    by_cases hi : nodeIndex c = i
    · subst hi
      obtain ⟨hlt, hget⟩ := List.getElem?_eq_some_iff.mp hcn
      simp only [hnode, if_true, Option.map_eq_map, Option.map_some, List.set_set,
        Option.some.injEq]
      rw [← hget, List.set_getElem_self]
    · simp [hi]
  exact congrArg (fun nodes => ({ cs with botLvlNodes := nodes } : CSpace)) hnodes

/-- All that a successful `alloc_slot` does. -/
structure Takes (cs : CSpace) (c : Slot) (cs' : CSpace) : Prop where
  free : cs.Free c
  notLast : ¬ Last c
  /-- Slots below that are not handed out lie in cnodes that the top level marks. -/
  least : ∀ c' < c, ¬ Last c' → cs.Free c' → cs.topBf.Has (topLvlIndex c')
  allocated : ∀ c', cs'.Allocated c' ↔ cs.Allocated c' ∨ c' = c
  created : ∀ t, cs'.Created t ↔ cs.Created t
  topBf : ∀ t, cs'.topBf.Has t ↔ cs.topBf.Has t ∨ t = topLvlIndex c ∧ cs'.Full t
  size : cs'.topLvlSlots = cs.topLvlSlots
  length : cs'.topBf.length = cs.topBf.length
  clear : ¬ cs.topBf.Has (topLvlIndex c)
  inTop : topLvlIndex c < cs.topLvlSlots
  /-- Freeing the slot at once undoes the allocation. -/
  restores : ∀ {ε : Type}, c ≠ 0 → (freeSlot c : Prog Panic CSpace ε Unit) cs' = .ok () cs

/-- All that freeing an allocated slot does. -/
structure Gives (cs : CSpace) (c : Slot) (cs' : CSpace) : Prop where
  allocated : ∀ c', cs'.Allocated c' ↔ cs.Allocated c' ∧ c' ≠ c
  created : ∀ t, cs'.Created t ↔ cs.Created t
  topBf : ∀ t, cs'.topBf.Has t ↔ cs.topBf.Has t ∧ t ≠ topLvlIndex c
  size : cs'.topLvlSlots = cs.topLvlSlots
  length : cs'.topBf.length = cs.topBf.length

/-- The top level has a bit for each of its slots, and every cnode is one of them. -/
structure Sized (cs : CSpace) : Prop where
  top : cs.topLvlSlots = wordBits * cs.topBf.length
  created : ∀ t, cs.Created t → t < cs.topLvlSlots

theorem Sized.inRange (h : cs.Sized) (ht : t < cs.topLvlSlots) : cs.topBf.InRange t := by
  unfold Bitfield.InRange wordIndex
  rw [h.top] at ht
  exact Nat.div_lt_of_lt_mul ht

theorem Sized.lt_of_inRange (h : cs.Sized) (ht : cs.topBf.InRange t) : t < cs.topLvlSlots := by
  unfold Bitfield.InRange wordIndex wordBits at ht
  rw [h.top]
  unfold wordBits
  omega

theorem gives_of_clear {b b' : BotLvl} {topBf : Bitfield} (hb : cs.botLvl c = some b)
    (htop : cs.topBf.bfClrBit (topLvlIndex c) = some topBf)
    (hclr : b.clrBit (botLvlIndex c) = some b') :
    cs.Gives c { cs.setBotLvl c b' with topBf := topBf } where
  allocated := allocated_setBotLvl_clrBit hb hclr
  created := created_setBotLvl hb
  topBf := Bitfield.bfClrBit_has htop
  size := rfl
  length := Bitfield.bfClrBit_length htop

/-- The bit that `free_slot` clears in the top level. -/
theorem freeSlot_eq {ε : Type} {b b' : BotLvl} {topBf : Bitfield} (h0 : c ≠ 0)
    (hb : cs.botLvl c = some b) (hsize : topLvlIndex c < cs.topLvlSlots)
    (htop : cs.topBf.bfClrBit (topLvlIndex c) = some topBf)
    (hclr : b.clrBit (botLvlIndex c) = some b') :
    (freeSlot c : Prog Panic CSpace ε Unit) cs =
      .ok () { cs.setBotLvl c b' with topBf := topBf } := by
  have hbound : ¬ c > cs.topLvlSlots * cnodeSlots * 32 := by
    refine Nat.not_lt.mpr ?_
    unfold topLvlIndex cnodeSlots at *
    omega
  have hlvl : ({ cs with topBf := topBf } : CSpace).botLvl c = some b := hb
  refine Prog.eq_ok_of_wp ?_
  simp only [freeSlot, Prog.wp_bind, Prog.wp_gets, h0, hbound, if_false, Prog.wp_unwrap, htop,
    Option.some.injEq, forall_eq', reduceCtorEq, false_implies, and_true, Prog.wp_modify, hlvl,
    hclr]
  exact ⟨trivial, rfl⟩

/-- A slot of a created cnode, other than the null slot, is freed. -/
theorem freeSlot_gives (ε : Type) (hs : cs.Sized) (h0 : c ≠ 0) (hc : cs.Created (topLvlIndex c)) :
    ∃ cs', (freeSlot c : Prog Panic CSpace ε Unit) cs = .ok () cs' ∧ cs.Gives c cs' := by
  obtain ⟨b, hb⟩ := created_iff.mp hc
  have hlt := hs.created _ hc
  obtain ⟨topBf, htop⟩ := Bitfield.bfClrBit_inRange (hs.inRange hlt)
  obtain ⟨b', hclr⟩ := BotLvl.clrBit_some (b := b) (botLvlIndex_lt c)
  exact ⟨_, freeSlot_eq h0 hb hlt htop hclr, gives_of_clear hb htop hclr⟩

/-- Whatever its argument, `free_slot` changes nothing or frees that slot. -/
theorem freeSlot_cases (ε : Type) (cs : CSpace) (c : Slot) :
    (freeSlot c : Prog Panic CSpace ε Unit).wp (fun _ cs' => cs' = cs ∨ cs.Gives c cs')
      (fun _ _ => False) (fun _ => True) cs := by
  simp only [freeSlot, Prog.wp_bind, Prog.wp_gets, Prog.wp_ite, Prog.wp_pure, Prog.wp_unwrap,
    Prog.wp_modify]
  refine ⟨fun _ => .inl trivial, fun _ => ⟨fun _ => .inl trivial, fun _ => ⟨fun topBf htop => ?_,
    fun _ => trivial⟩⟩⟩
  cases hb : ({ cs with topBf := topBf } : CSpace).botLvl c with
  | none =>
    have hnot : ¬ cs.Allocated c := by
      intro hall
      rcases hall with ⟨b, hb', -⟩
      exact absurd (hb'.symm.trans hb) (by simp)
    exact .inr
      { allocated := by
          intro c'
          refine (and_iff_left_of_imp fun h heq => hnot ?_).symm
          exact heq ▸ h
        created _ := Iff.rfl
        topBf := Bitfield.bfClrBit_has htop
        size := rfl
        length := Bitfield.bfClrBit_length htop }
  | some b =>
    simp only [Prog.wp_bind, Prog.wp_unwrap, Prog.wp_modify]
    exact ⟨fun b' hclr => .inr (gives_of_clear hb htop hclr), fun _ => trivial⟩

/-- The new state of `alloc_slot`, which marks the cnode as full when it is. -/
theorem takes_of_first_free {b b' : BotLvl} {topBf : Bitfield} (hs : cs.Sized)
    (htop : cs.topBf.bfFirstFree = some (topLvlIndex c)) (hb : cs.botLvl c = some b)
    (hfree : b.bf.bfFirstFree = some (botLvlIndex c)) (hset : b.setBit (botLvlIndex c) = some b')
    (hlast : ¬ Last c) (hlen : topBf.length = cs.topBf.length)
    (hbits : ∀ t, topBf.Has t ↔
      cs.topBf.Has t ∨ t = topLvlIndex c ∧ (cs.setBotLvl c b').Full (topLvlIndex c))
    (hclr : topBf.bfClrBit (topLvlIndex c) = some cs.topBf) :
    cs.Takes c { cs.setBotLvl c b' with topBf := topBf } := by
  obtain ⟨hrange, hclear⟩ := Bitfield.bfFirstFree_spec htop
  have hnot : ¬ b.bf.Has (botLvlIndex c) := (Bitfield.bfFirstFree_spec hfree).2
  have hlt : topLvlIndex c < cs.topLvlSlots := hs.lt_of_inRange hrange
  have hself : (cs.setBotLvl c b').botLvl c = some b' := by
    rw [botLvl_setBotLvl hb, if_pos rfl]
  exact
    { free := ⟨created_iff.mpr ⟨b, hb⟩, fun h => hnot ((allocated_iff hb).mp h)⟩
      notLast := hlast
      least := by
        intro c' hlt' _ hfree'
        have hle : topLvlIndex c' ≤ topLvlIndex c := Nat.div_le_div_right (Nat.le_of_lt hlt')
        obtain hlt' | heq := Nat.lt_or_eq_of_le hle
        · exact Bitfield.bfFirstFree_least htop hlt'
        · refine absurd ((allocated_iff ?_).mpr (Bitfield.bfFirstFree_least hfree ?_)) hfree'.2
          · rw [← botLvl_topLvlIndex, heq, botLvl_topLvlIndex, hb]
          · have h₁ := slot_split c
            have h₂ := slot_split c'
            rw [heq] at h₂
            rw [← h₁, ← h₂] at hlt'
            exact Nat.lt_of_add_lt_add_left hlt'
      allocated := allocated_setBotLvl_setBit hb hset
      created := created_setBotLvl hb
      topBf := by
        intro t
        refine (hbits t).trans (or_congr_right (and_congr_right ?_))
        rintro rfl
        exact Iff.rfl
      size := rfl
      length := hlen
      clear := hclear
      inTop := hlt
      restores := by
        intro ε h0
        have hback : (freeSlot c : Prog Panic CSpace ε Unit)
            { cs.setBotLvl c b' with topBf := topBf } = _ :=
          freeSlot_eq h0 hself hlt hclr (BotLvl.clrBit_setBit hnot hset)
        rw [hback]
        refine congrArg (Outcome.ok ()) ?_
        have := setBotLvl_restore b' hb
        exact congrArg (fun s : CSpace => { s with topBf := cs.topBf }) this }

/-- In an open state `alloc_slot` takes the first slot it can; when every cnode is marked it
answers an error and changes nothing; when the first clear cnode does not exist it panics. -/
theorem allocSlot_takes (hs : cs.Sized) (ho : cs.Open) :
    allocSlot.wp cs.Takes (fun _ cs' => cs' = cs ∧ ∀ t < cs.topLvlSlots, cs.topBf.Has t)
      (fun p => p = .notImplemented ∧
        ∃ t, cs.topBf.bfFirstFree = some t ∧ ¬ cs.Created t) cs := by
  simp only [allocSlot, Prog.wp_bind, Prog.wp_gets, Prog.wp_okOr, Prog.wp_ite, Prog.wp_fail,
    Prog.wp_unwrap, Prog.wp_modify, Prog.wp_pure]
  constructor
  swap
  · intro hnone
    exact ⟨trivial, fun t ht => Bitfield.bfFirstFree_none hnone t (hs.inRange ht)⟩
  intro top htop
  obtain ⟨hrange, hclear⟩ := Bitfield.bfFirstFree_spec htop
  have hlt : top < cs.topLvlSlots := hs.lt_of_inRange hrange
  constructor
  · intro h
    omega
  intro _
  constructor
  swap
  · intro hnone
    refine ⟨trivial, top, htop, ?_⟩
    simp [Created, hnone]
  intro b hb
  -- the cnode is open: it has a clear bit before the last one, which is clear too
  have hcreated : cs.Created top := by simp [Created, hb]
  obtain ⟨hnotFull, hlastFree⟩ := ho top hcreated hclear
  have htop0 : topLvlIndex (top * cnodeSlots) = top := Nat.mul_div_cancel top (by decide)
  have hbit : ¬ b.bf.Has (cnodeSlots - 1) := by
    have h255 := botLvlIndex_join (t := top) (i := cnodeSlots - 1) (by decide)
    have ht255 := topLvlIndex_join (t := top) (i := cnodeSlots - 1) (by decide)
    have hno := hlastFree (top * cnodeSlots + (cnodeSlots - 1)) ht255 h255
    rw [allocated_iff (b := b), h255] at hno
    · exact hno
    · rw [← botLvl_topLvlIndex, ht255, hb]
  obtain ⟨i, hi, hile⟩ := Bitfield.bfFirstFree_le (BotLvl.inRange (b := b) (by decide)) hbit
  have hi255 : i < cnodeSlots - 1 := by
    refine Nat.lt_of_not_le fun hle => hnotFull ?_
    rw [← htop0]
    exact (full_iff hb hi).mpr hle
  have hi256 : i < cnodeSlots := Nat.lt_of_lt_of_le hi255 (by decide)
  have hct := topLvlIndex_join (t := top) hi256
  have hcb := botLvlIndex_join (t := top) hi256
  have hlvl : cs.botLvl (top * cnodeSlots + i) = some b := by
    rw [← botLvl_topLvlIndex, hct, hb]
  have hsame : ∀ b', cs.setBotLvl (top * cnodeSlots) b' = cs.setBotLvl (top * cnodeSlots + i) b' := by
    intro b'
    unfold setBotLvl nodeIndex cnodeIndex
    rw [show (top * cnodeSlots + i) / cnodeSlots = top from hct,
      show top * cnodeSlots / cnodeSlots = top from htop0]
  have hlast : ¬ Last (top * cnodeSlots + i) := by
    rw [Last, hcb]
    exact Nat.ne_of_lt hi255
  constructor
  swap
  · intro hnone
    rw [hnone] at hi
    cases hi
  intro i' hi'
  obtain rfl : i = i' := Option.some.inj (hi.symm.trans hi')
  constructor
  swap
  · intro hnone
    obtain ⟨b', hset⟩ := BotLvl.setBit_some (b := b) hi256
    rw [hnone] at hset
    cases hset
  intro b' hset
  have hself : (cs.setBotLvl (top * cnodeSlots) b').botLvl (top * cnodeSlots) = some b' := by
    rw [botLvl_setBotLvl hb, if_pos rfl]
  have hbit' : ¬ b'.bf.Has (cnodeSlots - 1) := by
    rw [Bitfield.bfSetBit_has (BotLvl.setBit_bf hset)]
    intro h
    obtain h | h := h
    · exact hbit h
    · omega
  constructor
  swap
  · intro hnone
    exact (hbit' (Bitfield.bfFirstFree_none hnone _ (BotLvl.inRange (by decide)))).elim
  intro next hnext
  have hfull := full_iff hself hnext
  rw [htop0] at hfull
  rw [hsame] at hfull ⊢
  have htop' : cs.topBf.bfFirstFree = some (topLvlIndex (top * cnodeSlots + i)) := by rw [hct, htop]
  rw [← hcb] at hset hi
  constructor
  · intro hge
    constructor
    · intro bf hbf
      refine takes_of_first_free hs htop' hlvl hi hset hlast (Bitfield.bfSetBit_length hbf) ?_ ?_
      · intro t
        rw [Bitfield.bfSetBit_has hbf, hct]
        exact or_congr_right (iff_self_and.mpr fun _ => hfull.mpr hge)
      · rw [hct]
        exact Bitfield.bfClrBit_bfSetBit hclear hbf
    · intro hnone
      obtain ⟨bf, hbf⟩ := Bitfield.bfSetBit_inRange hrange
      exact absurd (hbf.symm.trans hnone) (by simp)
  · intro hlt'
    have hclr : cs.topBf.bfClrBit (topLvlIndex (top * cnodeSlots + i)) = some cs.topBf := by
      rw [hct]
      exact Bitfield.bfClrBit_of_clear hrange hclear
    refine takes_of_first_free hs htop' hlvl hi hset hlast rfl (fun t => ?_) hclr
    rw [hct]
    exact (or_iff_left fun h => hlt' (hfull.mp h.2)).symm

/-- Where a created cnode is not marked, and all before it are created, a slot is taken. -/
theorem allocSlot_ok (hs : cs.Sized) (ho : cs.Open) (hcr : ∀ t' ≤ t, cs.Created t')
    (hclear : ¬ cs.topBf.Has t) : ∃ c cs', allocSlot cs = .ok c cs' ∧ cs.Takes c cs' := by
  have hspec := allocSlot_takes hs ho
  cases hm : allocSlot cs with
  | ok c cs' => exact ⟨c, cs', rfl, Prog.wp_ok hspec hm⟩
  | err e cs' =>
    exact absurd ((Prog.wp_err hspec hm).2 t (hs.created t (hcr t (Nat.le_refl t)))) hclear
  | panic p =>
    obtain ⟨-, t₀, hfirst, hnot⟩ := Prog.wp_panic_of hspec hm
    refine absurd (Bitfield.bfFirstFree_least hfirst ?_) hclear
    exact Nat.lt_of_not_le fun hle => hnot (hcr t₀ hle)

/-! ## Runs -/

/-- A call of the allocator. -/
inductive Call where
  | allocSlot
  | freeSlot (cptr : Slot)
  deriving DecidableEq, Repr

/-- The state after a call, unless it panics. -/
def call (cs : CSpace) : Call → Option CSpace
  | .allocSlot =>
    match allocSlot cs with
    | .ok _ cs' => some cs'
    | .err _ cs' => some cs'
    | .panic _ => none
  | .freeSlot c =>
    match (freeSlot c : Prog Panic CSpace Empty Unit) cs with
    | .ok () cs' => some cs'
    | .err e _ => e.elim
    | .panic _ => none

/-- The allocated slots. -/
def slots (cs : CSpace) : Set Slot := {c | cs.Allocated c}

/-- The least slot there is to hand out. -/
def Least (cs : CSpace) (c : Slot) : Prop :=
  cs.Free c ∧ ¬ Last c ∧ ∀ c', cs.Free c' → ¬ Last c' → c ≤ c'

/-- The top level marks exactly the full cnodes; a marked last slot is in a full one. -/
structure WellFormed (cs : CSpace) : Prop where
  sized : cs.Sized
  topBits : ∀ t, cs.Created t → (cs.topBf.Has t ↔ cs.Full t)
  last : ∀ c, Last c → cs.Allocated c → cs.Full (topLvlIndex c)

/-- A slot that can be given back: not the null slot, and of a cnode whose last slot is clear. -/
def Returnable (cs : CSpace) (c : Slot) : Prop :=
  c ≠ 0 ∧ cs.Allocated c ∧ ¬ cs.Allocated (lastOf c)

instance (cs : CSpace) (c : Slot) : Decidable (cs.Returnable c) :=
  inferInstanceAs (Decidable (_ ∧ _ ∧ _))

/-- Every slot that is freed can be given back. -/
def Returns (cs : CSpace) : Call → Prop
  | .allocSlot => True
  | .freeSlot c => cs.Returnable c

instance (cs : CSpace) : ∀ a : Call, Decidable (cs.Returns a)
  | .allocSlot => inferInstanceAs (Decidable True)
  | .freeSlot c => inferInstanceAs (Decidable (cs.Returnable c))

theorem Returnable.notLast (h : cs.Returnable c) : ¬ Last c := by
  intro hl
  have : c = lastOf c := hl.eq_lastOf rfl
  exact h.2.2 (this ▸ h.2.1)

theorem Full.mono (h : cs.Full t) (hall : ∀ c, cs.Allocated c → cs'.Allocated c) : cs'.Full t :=
  fun c ht hl => hall c (h c ht hl)

theorem WellFormed.isOpen (h : cs.WellFormed) : cs.Open := by
  intro t ht hclear
  have hnot : ¬ cs.Full t := fun hf => hclear ((h.topBits t ht).mpr hf)
  refine ⟨hnot, fun c hc hl ha => hnot ?_⟩
  rw [← hc]
  exact h.last c hl ha

namespace Takes

theorem allocated_of_ne (h : cs.Takes c cs') (hc : c' ≠ c) : cs'.Allocated c' ↔ cs.Allocated c' :=
  (h.allocated c').trans (or_iff_left hc)

theorem mono (h : cs.Takes c cs') (ha : cs.Allocated c') : cs'.Allocated c' :=
  (h.allocated c').mpr (.inl ha)

/-- Another cnode is as full as before. -/
theorem full_of_ne (h : cs.Takes c cs') (ht : t ≠ topLvlIndex c) : cs'.Full t ↔ cs.Full t := by
  constructor
  · intro hf c' hc' hl
    refine (h.allocated_of_ne ?_).mp (hf c' hc' hl)
    rintro rfl
    exact ht hc'.symm
  · intro hf
    exact hf.mono fun _ => h.mono

theorem sized (h : cs.Takes c cs') (hs : cs.Sized) : cs'.Sized where
  top := by rw [h.size, h.length, hs.top]
  created t ht := by
    rw [h.size]
    exact hs.created t ((h.created t).mp ht)

theorem isOpen (h : cs.Takes c cs') (ho : cs.Open) : cs'.Open := by
  intro t ht hclear
  have hnot : ¬ (cs.topBf.Has t ∨ t = topLvlIndex c ∧ cs'.Full t) := mt (h.topBf t).mpr hclear
  obtain ⟨hfull, hlast⟩ := ho t ((h.created t).mp ht) fun hb => hnot (.inl hb)
  constructor
  · intro hf
    by_cases htc : t = topLvlIndex c
    · exact hnot (.inr ⟨htc, hf⟩)
    · exact hfull ((h.full_of_ne htc).mp hf)
  · intro c' hc' hl ha
    refine hlast c' hc' hl ((h.allocated_of_ne ?_).mp ha)
    rintro rfl
    exact h.notLast hl

theorem wellFormed (h : cs.Takes c cs') (hwf : cs.WellFormed) : cs'.WellFormed where
  sized := h.sized hwf.sized
  topBits t ht := by
    rw [h.topBf]
    by_cases htc : t = topLvlIndex c
    · simp [htc, h.clear]
    · rw [hwf.topBits t ((h.created t).mp ht), h.full_of_ne htc]
      simp [htc]
  last c' hl ha := by
    have hne : c' ≠ c := by
      rintro rfl
      exact h.notLast hl
    exact (hwf.last c' hl ((h.allocated_of_ne hne).mp ha)).mono fun _ => h.mono

end Takes

namespace Gives

theorem allocated_of_ne (h : cs.Gives c cs') (hc : c' ≠ c) : cs'.Allocated c' ↔ cs.Allocated c' :=
  (h.allocated c').trans (and_iff_left hc)

theorem full_of_ne (h : cs.Gives c cs') (ht : t ≠ topLvlIndex c) : cs'.Full t ↔ cs.Full t := by
  have hne : ∀ c', topLvlIndex c' = t → c' ≠ c := by
    rintro c' hc' rfl
    exact ht hc'.symm
  exact forall_congr' fun c' => forall_congr' fun hc' => forall_congr' fun _ =>
    h.allocated_of_ne (hne c' hc')

/-- A freed slot that can be handed out again leaves its cnode not full. -/
theorem not_full (h : cs.Gives c cs') (hl : ¬ Last c) : ¬ cs'.Full (topLvlIndex c) := by
  intro hf
  exact ((h.allocated c).mp (hf c rfl hl)).2 rfl

theorem sized (h : cs.Gives c cs') (hs : cs.Sized) : cs'.Sized where
  top := by rw [h.size, h.length, hs.top]
  created t ht := by
    rw [h.size]
    exact hs.created t ((h.created t).mp ht)

/-- A cnode whose last slot is clear is open once another slot of it is free. -/
theorem isOpen (h : cs.Gives c cs') (hl : ¬ Last c) (hlast : ¬ cs.Allocated (lastOf c))
    (ho : cs.Open) : cs'.Open := by
  intro t ht hclear
  by_cases htc : t = topLvlIndex c
  · subst htc
    refine ⟨h.not_full hl, fun c' hc' hl' ha => hlast ?_⟩
    rw [← hl'.eq_lastOf hc']
    exact ((h.allocated c').mp ha).1
  · obtain ⟨hfull, hlast'⟩ := ho t ((h.created t).mp ht) fun hb =>
      hclear ((h.topBf t).mpr ⟨hb, htc⟩)
    exact ⟨mt (h.full_of_ne htc).mp hfull, fun c' hc' hl' ha =>
      hlast' c' hc' hl' ((h.allocated c').mp ha).1⟩

theorem wellFormed (h : cs.Gives c cs') (hl : ¬ Last c) (hlast : ¬ cs.Allocated (lastOf c))
    (hwf : cs.WellFormed) : cs'.WellFormed where
  sized := h.sized hwf.sized
  topBits t ht := by
    rw [h.topBf]
    by_cases htc : t = topLvlIndex c
    · subst htc
      simp [h.not_full hl]
    · rw [hwf.topBits t ((h.created t).mp ht), h.full_of_ne htc]
      simp [htc]
  last c' hl' ha := by
    obtain ⟨ha', -⟩ := (h.allocated c').mp ha
    have hne : topLvlIndex c' ≠ topLvlIndex c := by
      intro heq
      exact hlast (hl'.eq_lastOf heq ▸ ha')
    exact (h.full_of_ne hne).mpr (hwf.last c' hl' ha')

end Gives

/-- One call keeps the state well formed. -/
theorem WellFormed.step {a : Call} (h : cs.WellFormed) (hr : cs.Returns a)
    (hcall : cs.call a = some cs') : cs'.WellFormed := by
  cases a with
  | allocSlot =>
    have hspec := allocSlot_takes h.sized h.isOpen
    simp only [CSpace.call] at hcall
    cases hm : CSpace.allocSlot cs with
    | ok c cs₁ =>
      rw [hm] at hcall
      cases hcall
      exact (Prog.wp_ok hspec hm).wellFormed h
    | err e cs₁ =>
      rw [hm] at hcall
      cases hcall
      rw [(Prog.wp_err hspec hm).1]
      exact h
    | panic p =>
      rw [hm] at hcall
      cases hcall
  | freeSlot c =>
    obtain ⟨cs₁, hm, hg⟩ := freeSlot_gives Empty h.sized hr.1 hr.2.1.created
    simp only [CSpace.call, hm] at hcall
    cases hcall
    exact hg.wellFormed hr.notLast hr.2.2 h

theorem wellFormed_run {ops : List Call} (run : Run WellFormed call Returns ops cs) :
    cs.WellFormed :=
  run.invariant (fun _ h => h) fun _ _ _ h hr hcall => h.step hr hcall

/-- In a well-formed state the slot taken is the least one there is to hand out. -/
theorem Takes.isLeast (h : cs.Takes c cs') (hwf : cs.WellFormed) : cs.Least c := by
  refine ⟨h.free, h.notLast, fun c' hfree hl => Nat.le_of_not_lt fun hlt => ?_⟩
  have hfull := (hwf.topBits _ hfree.1).mp (h.least c' hlt hl hfree)
  exact hfree.2 (hfull c' rfl hl)

/-- The two-level allocator is a set of slots: it hands out the least slot that is free and not
the last of its cnode, an error changes nothing, a slot given back is the only one that gets
free, and the top level marks the full cnodes, in every state of every run. -/
theorem slots_run {ops : List Call} (run : Run WellFormed call Returns ops cs) :
    (∀ t, cs.Created t → (cs.topBf.Has t ↔ cs.Full t)) ∧
    (∀ c cs', allocSlot cs = .ok c cs' →
      c ∉ cs.slots ∧ cs.Least c ∧ cs'.slots = insert c cs.slots ∧
      (c ≠ 0 → (freeSlot c : Prog Panic CSpace Empty Unit) cs' = .ok () cs)) ∧
    (∀ e cs', allocSlot cs = .err e cs' → cs' = cs) ∧
    ∀ c, cs.Returnable c →
      ∃ cs', (freeSlot c : Prog Panic CSpace Empty Unit) cs = .ok () cs' ∧
        cs'.slots = cs.slots \ {c} := by
  have hwf := wellFormed_run run
  have hspec := allocSlot_takes hwf.sized hwf.isOpen
  refine ⟨hwf.topBits, ?_, ?_, ?_⟩
  · intro c cs' hm
    have ht := Prog.wp_ok hspec hm
    refine ⟨ht.free.2, ht.isLeast hwf, ?_, fun h0 => ht.restores h0⟩
    ext c'
    exact (ht.allocated c').trans or_comm
  · intro e cs' hm
    exact (Prog.wp_err hspec hm).1
  · intro c hr
    obtain ⟨cs', hm, hg⟩ := freeSlot_gives _ hwf.sized hr.1 hr.2.1.created
    refine ⟨cs', hm, ?_⟩
    ext c'
    exact hg.allocated c'

/-! ## One cnode -/

/-- A cspace with one bottom-level cnode. -/
def single (top : BitVec 64) (b : BotLvl) : CSpace := ⟨[top], 64, [[b]]⟩

theorem single_created {top : BitVec 64} {b : BotLvl} (h : (single top b).Created t) : t = 0 := by
  have hdiv : t * cnodeSlots / cnodeSlots = t := Nat.mul_div_cancel t (by decide)
  simp only [Created, single, botLvl, nodeIndex, cnodeIndex, hdiv] at h
  cases hn : t / botLvlPerNode with
  | succ n => simp [hn] at h
  | zero =>
    cases hc : t % botLvlPerNode with
    | succ n => simp [hn, hc] at h
    | zero =>
      have := Nat.div_add_mod t botLvlPerNode
      rw [hn, hc] at this
      exact this.symm

theorem single_full {top : BitVec 64} {b : BotLvl} :
    (single top b).Full 0 ↔ ∀ i < cnodeSlots - 1, b.bf.Has i := by
  have hlvl : ∀ c, topLvlIndex c = 0 → (single top b).botLvl c = some b := by
    intro c hc
    rw [← botLvl_topLvlIndex, hc]
    rfl
  constructor
  · intro h i hi
    have hlt : i < cnodeSlots := Nat.lt_of_lt_of_le hi (by decide)
    have ht : topLvlIndex i = 0 := Nat.div_eq_of_lt hlt
    have hb : botLvlIndex i = i := Nat.mod_eq_of_lt hlt
    have := h i ht fun hl => by
      rw [Last, hb] at hl
      exact absurd hl (Nat.ne_of_lt hi)
    rwa [allocated_iff (hlvl i ht), hb] at this
  · intro h c hc hl
    rw [allocated_iff (hlvl c hc)]
    refine h _ ?_
    have := botLvlIndex_lt c
    unfold Last at hl
    omega

theorem single_wellFormed {top : BitVec 64} {b : BotLvl}
    (htop : top.getLsbD 0 = true ↔ ∀ i < cnodeSlots - 1, b.bf.Has i)
    (hlast : b.bf.Has (cnodeSlots - 1) → ∀ i < cnodeSlots - 1, b.bf.Has i) :
    (single top b).WellFormed where
  sized :=
    { top := rfl
      created t ht := by
        rw [single_created ht]
        exact Nat.succ_pos 63 }
  topBits t ht := by
    rw [single_created ht, single_full, ← htop]
    exact Bitfield.has_cons_lt (by decide)
  last c hl ha := by
    have hc : topLvlIndex c = 0 := single_created ha.created
    have hlvl : (single top b).botLvl c = some b := by
      rw [← botLvl_topLvlIndex, hc]
      rfl
    rw [hc, single_full]
    rw [allocated_iff hlvl, show botLvlIndex c = cnodeSlots - 1 from hl] at ha
    exact hlast ha

/-- A cnode with nothing but the null slot in use. -/
def fresh : CSpace := single 0 ⟨[1, 0, 0, 0], rfl⟩

/-- A cnode used up to its last slot, as bootstrap leaves them. -/
def usedUp : CSpace := single 1 ⟨List.replicate 4 (BitVec.allOnes 64), rfl⟩

theorem fresh_wellFormed : fresh.WellFormed :=
  single_wellFormed (by decide +kernel) (by decide +kernel)

theorem usedUp_wellFormed : usedUp.WellFormed :=
  single_wellFormed (by decide +kernel) (by decide +kernel)

/-- Two slots are taken and one is given back. -/
theorem slots_run_fresh : ∃ cs, Run WellFormed call Returns
    [.allocSlot, .allocSlot, .freeSlot 1] cs ∧ ∀ t, cs.Created t → (cs.topBf.Has t ↔ cs.Full t) := by
  have hrun : ∃ cs, Run WellFormed call Returns [.allocSlot, .allocSlot, .freeSlot 1] cs ∧
      cs.Allocated 2 :=
    Run.exists_of_steps fresh_wellFormed (by decide +kernel) (by decide +kernel)
  obtain ⟨cs, run, -⟩ := hrun
  exact ⟨cs, run, (slots_run run).1⟩

set_option maxRecDepth 4000 in
/-- Freeing the null slot does nothing. In a used-up cnode a freed slot is marked again by an
`alloc_slot` that fails, and the top level does not mark the cnode although it is full. -/
theorem slots_not_run : usedUp.WellFormed ∧
    (usedUp.Allocated 0 ∧ usedUp.call (.freeSlot 0) = some usedUp) ∧
    usedUp.Allocated 5 ∧ ∃ cs cs', usedUp.call (.freeSlot 5) = some cs ∧
      allocSlot cs = .err .notEnoughMemory cs' ∧ cs'.Allocated 5 ∧
      cs'.Created 0 ∧ ¬ cs'.topBf.Has 0 ∧ cs'.Full 0 := by
  refine ⟨usedUp_wellFormed, ⟨by decide +kernel, rfl⟩, by decide +kernel,
    single 0 ⟨[BitVec.ofNat 64 (2 ^ 64 - 1 - 2 ^ 5), BitVec.allOnes 64, BitVec.allOnes 64,
      BitVec.allOnes 64], rfl⟩, single 0 ⟨List.replicate 4 (BitVec.allOnes 64), rfl⟩, rfl, rfl, ?_⟩
  exact ⟨by decide +kernel, by decide +kernel, by decide +kernel,
    single_full.mpr (by decide +kernel)⟩

end Smos.RootServer.CSpace
