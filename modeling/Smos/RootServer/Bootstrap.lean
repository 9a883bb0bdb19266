/-
Smos.RootServer.Bootstrap — recording the slots that bootstrap used.

Bootstrap hands out slots by counting: those below `first_free_slot` hold
its capabilities. At the end it writes this count into the bit fields of
the allocator: the cnodes that are used up, the slots of the next cnode
that are used, and how many cnodes each node block has.

The inner loop of the first part shadows its index: `CNODE_INDEX(i)` is
taken of a word number, not of a slot, so it is always the first cnode of
the block that is filled. A used-up cnode whose index in its block is not 0
is marked at the top level only.

`Shows` describes a state by the count of cnodes, the set of top-level bits
and the set of bottom-level bits; each loop has a specification in terms
of it.
-/
import Smos.RootServer.SlotSet

namespace Smos.RootServer

open Smos.Base

/-- `BotLvlNodeT`, without the memory it lies in. -/
structure BotLvlNode where
  nCnodes : Nat
  cnodes : List BotLvl
  length_eq : cnodes.length = botLvlPerNode

/-- The cspace while bootstrap fills it in. -/
structure BootCSpace where
  topBf : Bitfield
  botLvlNodes : List BotLvlNode

/-- `CNODE_SLOTS(INITIAL_TASK_CNODE_SIZE_BITS)`. -/
def initialTaskCnodeSlots : Nat := 8192

/-- A cnode without a bit set. -/
def BotLvl.zeroed : BotLvl := ⟨List.replicate 4 0, rfl⟩

/-- `init_bot_lvl_node`: a page of zeros. -/
def BotLvlNode.zeroed : BotLvlNode :=
  ⟨0, List.replicate botLvlPerNode .zeroed, List.length_replicate⟩

/-- `n_bot_lvl`, from the first free slot at that point. -/
def nBotLvl (firstFreeSlot nCnodes : Nat) : Nat :=
  max (firstFreeSlot / cnodeSlots + 1) nCnodes / botLvlPerNode + 1

/-- The cspace before the used slots are recorded. -/
def BootCSpace.zeroed (nBotLvl : Nat) : BootCSpace :=
  ⟨Bitfield.init initialTaskCnodeSlots, List.replicate nBotLvl .zeroed⟩

/-- What the allocator sees: it looks at the first `n_cnodes` of a node only. -/
def BootCSpace.toCSpace (b : BootCSpace) : CSpace where
  topBf := b.topBf
  topLvlSlots := initialTaskCnodeSlots
  botLvlNodes := b.botLvlNodes.map fun node => node.cnodes.take node.nCnodes

/-- `bf[i] = u64::MAX`. -/
def BotLvl.fillWord (i : Nat) (b : BotLvl) : Option BotLvl :=
  if i < b.bf.length then
    some ⟨b.bf.set i (BitVec.allOnes 64), (List.length_set ..).trans b.length_eq⟩
  else none

/-- Change one cnode of a node. -/
def BotLvlNode.setCnode (node : BotLvlNode) (i : Nat) (b : BotLvl) : BotLvlNode :=
  ⟨node.nCnodes, node.cnodes.set i b, (List.length_set ..).trans node.length_eq⟩

abbrev BootProg (α : Type) := Prog Panic BootCSpace Sel4Error α

namespace Bootstrap

open CSpace

/-- `get_bot_lvl_node`, which asserts that the node is there. -/
def getBotLvlNode (i : Nat) : BootProg BotLvlNode := do
  (← Prog.gets fun b => b.botLvlNodes[i]?) |> Prog.unwrap .assertionFailed

def putBotLvlNode (i : Nat) (node : BotLvlNode) : BootProg Unit :=
  Prog.modify fun b => { b with botLvlNodes := b.botLvlNodes.set i node }

/-- `n_cnodes += 1`. -/
def addCnode (i : Nat) : BootProg Unit := do
  let node ← getBotLvlNode i
  putBotLvlNode i { node with nCnodes := node.nCnodes + 1 }

/-- A write to one cnode of a node. -/
def writeCnode (i cnode : Nat) (f : BotLvl → Option BotLvl) : BootProg Unit := do
  let node ← getBotLvlNode i
  let botLvl ← node.cnodes[cnode]? |> Prog.unwrap .indexOutOfBounds
  let botLvl' ← f botLvl |> Prog.unwrap .indexOutOfBounds
  putBotLvlNode i (node.setCnode cnode botLvl')

/-- One turn of the first loop, for the used-up cnode of slot `i`. -/
def recordFull (i : Slot) : BootProg Unit := do
  addCnode (nodeIndex i)
  -- this index is a word of the field, and shadows the slot
  Prog.forEach (fun i' => writeCnode (nodeIndex i) (cnodeIndex i') (BotLvl.fillWord i'))
    (List.range (cnodeSlots / wordBits))
  let topBf ← (← Prog.gets fun b => b.topBf.bfSetBit (topLvlIndex i))
    |> Prog.unwrap .indexOutOfBounds
  Prog.modify fun b => { b with topBf := topBf }

/-- "now record all the cptrs we have already used to bootstrap". -/
def recordUsed (firstFreeSlot nCnodes : Nat) : BootProg Unit := do
  Prog.forEach (fun k => recordFull (k * cnodeSlots)) (List.range (firstFreeSlot / cnodeSlots))
  addCnode (firstFreeSlot / cnodeSlots / botLvlPerNode)
  Prog.forEach
    (fun k =>
      let i := firstFreeSlot / cnodeSlots * cnodeSlots + k
      writeCnode (firstFreeSlot / cnodeSlots / botLvlPerNode) (cnodeIndex i)
        fun botLvl => botLvl.setBit (botLvlIndex i))
    (List.range (firstFreeSlot % cnodeSlots))
  Prog.forEach (fun k => addCnode ((firstFreeSlot / cnodeSlots + 1 + k) / botLvlPerNode))
    (List.range (nCnodes - (firstFreeSlot / cnodeSlots + 1)))

/-! ## A state by its counts and bits -/

/-- Of `m` cnodes, how many lie in node block `j`. -/
def inBlock (m j : Nat) : Nat := min (m - botLvlPerNode * j) botLvlPerNode

/-- The blocks count `m` cnodes; the top-level bits are `top`, those of cnode `t` are `bits t`. -/
structure Shows (b : BootCSpace) (blocks m : Nat) (top : Nat → Prop) (bits : Nat → Nat → Prop) :
    Prop where
  blocks : b.botLvlNodes.length = blocks
  length : b.topBf.length = initialTaskCnodeSlots / wordBits
  count : ∀ j node, b.botLvlNodes[j]? = some node → node.nCnodes = inBlock m j
  top : ∀ t, b.topBf.Has t ↔ top t
  bits : ∀ j node i botLvl, b.botLvlNodes[j]? = some node → node.cnodes[i]? = some botLvl →
    ∀ k, botLvl.bf.Has k ↔ bits (j * botLvlPerNode + i) k

variable {b : BootCSpace} {blocks m : Nat} {top : Nat → Prop} {bits bits' : Nat → Nat → Prop}

theorem Shows.congr (h : Shows b blocks m top bits) {top' : Nat → Prop}
    (ht : ∀ t, top t ↔ top' t) (hb : ∀ t k, bits t k ↔ bits' t k) :
    Shows b blocks m top' bits' where
  blocks := h.blocks
  length := h.length
  count := h.count
  top t := (h.top t).trans (ht t)
  bits j node i botLvl hj hi k := (h.bits j node i botLvl hj hi k).trans (hb _ k)

theorem not_has_replicate (n k : Nat) : ¬ Bitfield.Has (List.replicate n 0) k := by
  rw [Bitfield.has_iff]
  intro ⟨w, hw, hbit⟩
  rw [List.eq_of_mem_replicate (List.mem_of_getElem? hw)] at hbit
  simp at hbit

theorem zeroed_shows (blocks : Nat) :
    Shows (.zeroed blocks) blocks 0 (fun _ => False) fun _ _ => False where
  blocks := List.length_replicate
  length := List.length_replicate
  count j node hj := by
    rw [List.eq_of_mem_replicate (List.mem_of_getElem? hj)]
    simp [BotLvlNode.zeroed, inBlock]
  top t := iff_false_intro (not_has_replicate _ t)
  bits j node i botLvl hj hi k := by
    obtain rfl : node = .zeroed := List.eq_of_mem_replicate (List.mem_of_getElem? hj)
    obtain rfl : botLvl = .zeroed := List.eq_of_mem_replicate (List.mem_of_getElem? hi)
    exact iff_false_intro (not_has_replicate 4 k)

/-! ## The steps -/

theorem getBotLvlNode_ok {j : Nat} (h : Shows b blocks m top bits) (hj : j < blocks) :
    ∃ node, b.botLvlNodes[j]? = some node ∧ getBotLvlNode j b = .ok node b := by
  rw [← h.blocks] at hj
  refine ⟨b.botLvlNodes[j], List.getElem?_eq_getElem hj, ?_⟩
  refine Prog.eq_ok_of_wp ?_
  simp [getBotLvlNode, hj]

theorem addCnode_shows {j : Nat} (h : Shows b blocks m top bits) (hj : j < blocks)
    (hm : m / botLvlPerNode = j) :
    (addCnode j).wp (fun _ b' => Shows b' blocks (m + 1) top bits) (fun _ _ => False)
      (fun _ => False) b := by
  obtain ⟨node, hnode, hget⟩ := getBotLvlNode_ok h hj
  rw [addCnode, Prog.wp, Prog.bind_of_ok hget]
  show Shows _ blocks (m + 1) top bits
  refine ⟨?_, h.length, ?_, h.top, ?_⟩
  · rw [List.length_set, h.blocks]
  · intro j' node' hj'
    rw [List.getElem?_set] at hj'
    by_cases heq : j = j'
    · subst heq
      rw [if_pos rfl, if_pos (h.blocks ▸ hj)] at hj'
      cases hj'
      show node.nCnodes + 1 = inBlock (m + 1) j
      rw [h.count j node hnode]
      unfold inBlock at *
      simp only [botLvlPerNode_eq] at *
      omega
    · rw [if_neg heq] at hj'
      rw [h.count j' node' hj']
      unfold inBlock at *
      simp only [botLvlPerNode_eq] at *
      omega
  · intro j' node' i botLvl hj' hi k
    rw [List.getElem?_set] at hj'
    by_cases heq : j = j'
    · subst heq
      rw [if_pos rfl, if_pos (h.blocks ▸ hj)] at hj'
      cases hj'
      exact h.bits j node i botLvl hnode hi k
    · rw [if_neg heq] at hj'
      exact h.bits j' node' i botLvl hj' hi k

/-- A write to cnode `i` of block `j`, which turns its bits into `N`. -/
theorem writeCnode_shows {j i : Nat} {f : BotLvl → Option BotLvl} {N : Nat → Prop}
    (h : Shows b blocks m top bits) (hj : j < blocks) (hi : i < botLvlPerNode)
    (hf : ∀ botLvl : BotLvl, (∀ k, botLvl.bf.Has k ↔ bits (j * botLvlPerNode + i) k) →
      ∃ botLvl', f botLvl = some botLvl' ∧ ∀ k, botLvl'.bf.Has k ↔ N k) :
    (writeCnode j i f).wp
      (fun _ b' => Shows b' blocks m top fun t k =>
        if t = j * botLvlPerNode + i then N k else bits t k)
      (fun _ _ => False) (fun _ => False) b := by
  obtain ⟨node, hnode, hget⟩ := getBotLvlNode_ok h hj
  have hlen : i < node.cnodes.length := by rw [node.length_eq]; exact hi
  have hcn : node.cnodes[i]? = some node.cnodes[i] := List.getElem?_eq_getElem hlen
  obtain ⟨botLvl', hf', hnew⟩ := hf _ (h.bits j node i _ hnode hcn)
  have hrun : writeCnode j i f b = putBotLvlNode j (node.setCnode i botLvl') b := by
    rw [writeCnode, Prog.bind_of_ok hget, hcn]
    show (Prog.unwrap _ (f node.cnodes[i]) >>= _) b = _
    rw [hf']
    rfl
  rw [Prog.wp, hrun]
  show Shows _ blocks m top _
  refine ⟨?_, h.length, ?_, h.top, ?_⟩
  · rw [List.length_set, h.blocks]
  · intro j' node' hj'
    rw [List.getElem?_set] at hj'
    by_cases heq : j = j'
    · subst heq
      rw [if_pos rfl, if_pos (h.blocks ▸ hj)] at hj'
      cases hj'
      exact h.count j node hnode
    · rw [if_neg heq] at hj'
      exact h.count j' node' hj'
  · intro j' node' i' botLvl hj' hi' k
    have hi'lt : i' < botLvlPerNode := by
      rw [← node'.length_eq]
      exact (List.getElem?_eq_some_iff.mp hi').1
    rw [List.getElem?_set] at hj'
    by_cases heq : j = j'
    · subst heq
      rw [if_pos rfl, if_pos (h.blocks ▸ hj)] at hj'
      cases hj'
      simp only [BotLvlNode.setCnode, List.getElem?_set] at hi'
      by_cases hii : i = i'
      · subst hii
        rw [if_pos rfl, if_pos hlen] at hi'
        cases hi'
        simpa using hnew k
      · rw [if_neg hii] at hi'
        rw [h.bits j node i' botLvl hnode hi' k, if_neg (by omega)]
    · rw [if_neg heq] at hj'
      rw [h.bits j' node' i' botLvl hj' hi' k, if_neg]
      simp only [botLvlPerNode_eq] at *
      omega

theorem fillWord_has (botLvl : BotLvl) {w : Nat} (hw : w < 4) :
    ∃ botLvl', botLvl.fillWord w = some botLvl' ∧
      ∀ k, botLvl'.bf.Has k ↔ botLvl.bf.Has k ∨ k / 64 = w := by
  have hlen : w < botLvl.bf.length := by rw [botLvl.length_eq]; exact hw
  refine ⟨_, if_pos hlen, fun k => ?_⟩
  simp only [Bitfield.has_iff, List.getElem?_set, wordIndex, wordBits]
  by_cases hk : w = k / 64
  · simp only [hk, if_true, or_true, iff_true]
    rw [if_pos (hk ▸ hlen)]
    refine ⟨_, rfl, ?_⟩
    rw [BitVec.getLsbD_allOnes]
    simpa using Bitfield.bitIndex_lt k
  · simp [hk, Ne.symm hk]

/-- A used-up cnode: the first cnode of its block gets the bits. -/
theorem recordFull_shows (h : Shows b blocks m top bits) (hj : m / botLvlPerNode < blocks)
    (hm : m < initialTaskCnodeSlots) :
    (recordFull (m * cnodeSlots)).wp
      (fun _ b' => Shows b' blocks (m + 1) (fun t => top t ∨ t = m) fun t k =>
        bits t k ∨ t = m / botLvlPerNode * botLvlPerNode ∧ k < cnodeSlots)
      (fun _ _ => False) (fun _ => False) b := by
  have hdiv : m * cnodeSlots / cnodeSlots = m := Nat.mul_div_cancel m (by decide)
  have hnode : nodeIndex (m * cnodeSlots) = m / botLvlPerNode := by rw [nodeIndex, hdiv]
  have htop : topLvlIndex (m * cnodeSlots) = m := hdiv
  rw [recordFull, hnode, htop]
  simp only [Prog.wp_bind]
  refine Prog.wp_mono (addCnode_shows h hj rfl) ?_ (fun _ _ h => h) (fun _ h => h)
  intro _ b₁ h₁
  -- after `n` turns of the inner loop the first `n` words are filled
  have hloop := Prog.wp_forEach_range (s := b₁) (n := cnodeSlots / wordBits)
    (E := fun _ _ => False) (P := fun _ => False)
    (f := fun i' => writeCnode (m / botLvlPerNode) (cnodeIndex i') (BotLvl.fillWord i'))
    (I := fun n b' => Shows b' blocks (m + 1) top fun t k =>
      bits t k ∨ t = m / botLvlPerNode * botLvlPerNode ∧ k < n * wordBits)
    (h₁.congr (fun _ => Iff.rfl) (by simp)) ?_
  · refine Prog.wp_mono hloop ?_ (fun _ _ h => h) (fun _ h => h)
    intro _ b₂ h₂
    simp only [Prog.wp_gets, Prog.wp_unwrap, Prog.wp_modify]
    have hrange : b₂.topBf.InRange m := by
      rw [Bitfield.InRange, h₂.length]
      exact Nat.div_lt_div_of_lt_of_dvd (by decide) hm
    constructor
    · intro topBf hset
      exact
        { blocks := h₂.blocks
          length := (Bitfield.bfSetBit_length hset).trans h₂.length
          count := h₂.count
          top := fun t => (Bitfield.bfSetBit_has hset t).trans (or_congr_left (h₂.top t))
          bits := h₂.bits }
    · intro hnone
      obtain ⟨topBf, hset⟩ := Bitfield.bfSetBit_inRange hrange
      exact absurd (hset.symm.trans hnone) (by simp)
  · intro w hw b' h'
    have hw4 : w < 4 := hw
    have hzero : cnodeIndex w = 0 := by
      unfold cnodeIndex cnodeSlots
      simp only [botLvlPerNode_eq]
      omega
    rw [hzero]
    refine Prog.wp_mono (writeCnode_shows h' hj (by decide)
      (N := fun k => bits (m / botLvlPerNode * botLvlPerNode) k ∨ k < (w + 1) * wordBits) ?_) ?_
      (fun _ _ h => h) (fun _ h => h)
    · intro botLvl hbits
      obtain ⟨botLvl', hfill, hhas⟩ := fillWord_has botLvl hw4
      refine ⟨botLvl', hfill, fun k => ?_⟩
      rw [hhas, hbits]
      simp only [Nat.add_zero, true_and, or_assoc]
      refine or_congr_right ?_
      unfold wordBits
      omega
    · intro _ b₂ h₂
      refine h₂.congr (fun _ => Iff.rfl) fun t k => ?_
      simp only [Nat.add_zero]
      split
      · rename_i heq
        simp [heq]
      · rename_i hne
        simp [hne]

/-! ## The loops -/

/-- The bits that the recording loops leave set in cnode `t`. -/
def recordedBits (firstFreeSlot t k : Nat) : Prop :=
  t % botLvlPerNode = 0 ∧ t < firstFreeSlot / cnodeSlots ∧ k < cnodeSlots ∨
    t = firstFreeSlot / cnodeSlots ∧ k < firstFreeSlot % cnodeSlots

/-- What the recording loops leave: cnodes are counted up to the one that holds the first free
slot, or to the last one. -/
theorem recordUsed_shows {firstFreeSlot nCnodes : Nat}
    (hblocks : max (firstFreeSlot / cnodeSlots + 1) nCnodes ≤ blocks * botLvlPerNode)
    (hsize : firstFreeSlot / cnodeSlots ≤ initialTaskCnodeSlots) :
    (recordUsed firstFreeSlot nCnodes).wp
      (fun _ b' => Shows b' blocks (max (firstFreeSlot / cnodeSlots + 1) nCnodes)
        (fun t => t < firstFreeSlot / cnodeSlots) (recordedBits firstFreeSlot))
      (fun _ _ => False) (fun _ => False) (.zeroed blocks) := by
  unfold recordedBits
  generalize hF : firstFreeSlot / cnodeSlots = F at *
  have hblock : ∀ t, t < max (F + 1) nCnodes → t / botLvlPerNode < blocks := by
    intro t ht
    exact Nat.div_lt_of_lt_mul (Nat.lt_of_lt_of_le ht (by rwa [Nat.mul_comm] at hblocks))
  simp only [recordUsed, Prog.wp_bind, hF]
  -- the used-up cnodes
  have hfull := Prog.wp_forEach_range (s := .zeroed blocks) (n := F)
    (E := fun _ _ => False) (P := fun _ => False) (f := fun k => recordFull (k * cnodeSlots))
    (I := fun n b' => Shows b' blocks n (fun t => t < n) fun t k =>
      t % botLvlPerNode = 0 ∧ t < n ∧ k < cnodeSlots)
    ((zeroed_shows blocks).congr (by simp) (by simp)) ?_
  swap
  · intro n hn b' h'
    refine Prog.wp_mono (recordFull_shows h' (hblock n (by omega)) (by omega)) ?_
      (fun _ _ h => h) (fun _ h => h)
    intro _ b₂ h₂
    refine h₂.congr (fun t => by omega) fun t k => ?_
    simp only [botLvlPerNode_eq]
    omega
  refine Prog.wp_mono hfull ?_ (fun _ _ h => h) (fun _ h => h)
  intro _ b₁ h₁
  -- the cnode of the first free slot
  refine Prog.wp_mono (addCnode_shows h₁ (hblock F (by omega)) rfl) ?_
    (fun _ _ h => h) (fun _ h => h)
  intro _ b₂ h₂
  have hslots := Prog.wp_forEach_range (s := b₂) (n := firstFreeSlot % cnodeSlots)
    (E := fun _ _ => False) (P := fun _ => False)
    (f := fun k => writeCnode (F / botLvlPerNode) (cnodeIndex (F * cnodeSlots + k))
      fun botLvl => botLvl.setBit (botLvlIndex (F * cnodeSlots + k)))
    (I := fun n b' => Shows b' blocks (F + 1) (fun t => t < F) fun t k =>
      t % botLvlPerNode = 0 ∧ t < F ∧ k < cnodeSlots ∨ t = F ∧ k < n)
    (h₂.congr (fun _ => Iff.rfl) (by simp)) ?_
  swap
  · intro n hn b' h'
    have hn256 : n < cnodeSlots := Nat.lt_trans hn (Nat.mod_lt _ (by decide))
    have hindex : cnodeIndex (F * cnodeSlots + n) = F % botLvlPerNode :=
      congrArg (· % botLvlPerNode) (topLvlIndex_join hn256)
    have hjoin : F / botLvlPerNode * botLvlPerNode + F % botLvlPerNode = F := by
      rw [Nat.mul_comm]
      exact Nat.div_add_mod F botLvlPerNode
    rw [hindex, botLvlIndex_join hn256]
    refine Prog.wp_mono (writeCnode_shows h' (hblock F (by omega)) (Nat.mod_lt _ (by decide))
      (N := fun k => k < n + 1) ?_) ?_ (fun _ _ h => h) (fun _ h => h)
    · intro botLvl hbits
      obtain ⟨botLvl', hset⟩ := BotLvl.setBit_some (b := botLvl) hn256
      refine ⟨botLvl', hset, fun k => ?_⟩
      rw [Bitfield.bfSetBit_has (BotLvl.setBit_bf hset), hbits, hjoin]
      omega
    · intro _ b₃ h₃
      refine h₃.congr (fun _ => Iff.rfl) fun t k => ?_
      rw [hjoin]
      split
      · rename_i heq
        simp [heq]
      · rename_i hne
        simp [hne]
  refine Prog.wp_mono hslots ?_ (fun _ _ h => h) (fun _ h => h)
  intro _ b₃ h₃
  -- the cnodes after it
  have hrest := Prog.wp_forEach_range (s := b₃) (n := nCnodes - (F + 1))
    (E := fun _ _ => False) (P := fun _ => False)
    (f := fun k => addCnode ((F + 1 + k) / botLvlPerNode))
    (I := fun n b' => Shows b' blocks (F + 1 + n) (fun t => t < F) fun t k =>
      t % botLvlPerNode = 0 ∧ t < F ∧ k < cnodeSlots ∨ t = F ∧ k < firstFreeSlot % cnodeSlots)
    h₃ ?_
  swap
  · intro n hn b' h'
    exact addCnode_shows h' (hblock _ (by omega)) rfl
  refine Prog.wp_mono hrest ?_ (fun _ _ h => h) (fun _ h => h)
  intro _ b₄ h₄
  rwa [show F + 1 + (nCnodes - (F + 1)) = max (F + 1) nCnodes by omega] at h₄

/-! ## What the allocator sees -/

theorem botLvl_toCSpace {c : Slot} {bl : BotLvl} :
    b.toCSpace.botLvl c = some bl ↔ ∃ node, b.botLvlNodes[nodeIndex c]? = some node ∧
      cnodeIndex c < node.nCnodes ∧ node.cnodes[cnodeIndex c]? = some bl := by
  simp only [CSpace.botLvl, BootCSpace.toCSpace, List.getElem?_map, Option.bind_eq_some_iff,
    Option.map_eq_some_iff]
  constructor
  · rintro ⟨_, ⟨node, hnode, rfl⟩, hget⟩
    rw [List.getElem?_take] at hget
    split at hget
    · exact ⟨node, hnode, by assumption, hget⟩
    · cases hget
  · intro hall
    rcases hall with ⟨node, hnode, hlt, hget⟩
    refine ⟨_, ⟨node, hnode, rfl⟩, ?_⟩
    rw [List.getElem?_take, if_pos hlt, hget]

theorem block_join (t : Nat) : t / botLvlPerNode * botLvlPerNode + t % botLvlPerNode = t := by
  rw [Nat.mul_comm]
  exact Nat.div_add_mod t botLvlPerNode

/-- The bits of a counted cnode. -/
theorem Shows.botLvl (h : Shows b blocks m top bits) (hm : m ≤ blocks * botLvlPerNode) {c : Slot}
    (hc : topLvlIndex c < m) :
    ∃ botLvl, b.toCSpace.botLvl c = some botLvl ∧
      ∀ k, botLvl.bf.Has k ↔ bits (topLvlIndex c) k := by
  have hblock : nodeIndex c < b.botLvlNodes.length := by
    rw [h.blocks]
    refine Nat.div_lt_of_lt_mul (Nat.lt_of_lt_of_le hc ?_)
    rwa [Nat.mul_comm] at hm
  have hnode := List.getElem?_eq_getElem hblock
  have hcn : cnodeIndex c < b.botLvlNodes[nodeIndex c].cnodes.length := by
    rw [BotLvlNode.length_eq]
    exact Nat.mod_lt _ (by decide)
  have hcount := h.count _ _ hnode
  have hlt : cnodeIndex c < b.botLvlNodes[nodeIndex c].nCnodes := by
    rw [hcount]
    change topLvlIndex c % botLvlPerNode < inBlock m (topLvlIndex c / botLvlPerNode)
    unfold inBlock
    simp only [botLvlPerNode_eq]
    omega
  have hget := List.getElem?_eq_getElem hcn
  refine ⟨_, botLvl_toCSpace.mpr ⟨_, hnode, hlt, hget⟩, fun k => ?_⟩
  rw [h.bits _ _ _ _ hnode hget, show nodeIndex c * botLvlPerNode + cnodeIndex c = topLvlIndex c from
    block_join _]

theorem Shows.created (h : Shows b blocks m top bits) (hm : m ≤ blocks * botLvlPerNode) (t : Nat) :
    b.toCSpace.Created t ↔ t < m := by
  have ht : topLvlIndex (t * cnodeSlots) = t := Nat.mul_div_cancel t (by decide)
  constructor
  · intro hc
    obtain ⟨botLvl, hb⟩ := Option.isSome_iff_exists.mp hc
    obtain ⟨node, hnode, hlt, -⟩ := botLvl_toCSpace.mp hb
    rw [h.count _ _ hnode] at hlt
    change topLvlIndex (t * cnodeSlots) % botLvlPerNode <
      inBlock m (topLvlIndex (t * cnodeSlots) / botLvlPerNode) at hlt
    rw [ht] at hlt
    unfold inBlock at hlt
    simp only [botLvlPerNode_eq] at hlt
    omega
  · intro hlt
    obtain ⟨botLvl, hb, -⟩ := h.botLvl hm (c := t * cnodeSlots) (by rwa [ht])
    simp [Created, hb]

theorem Shows.allocated (h : Shows b blocks m top bits) (hm : m ≤ blocks * botLvlPerNode)
    (c : Slot) :
    b.toCSpace.Allocated c ↔ topLvlIndex c < m ∧ bits (topLvlIndex c) (botLvlIndex c) := by
  constructor
  · intro ha
    have hlt := (h.created hm _).mp ha.created
    obtain ⟨botLvl, hb, hbits⟩ := h.botLvl hm hlt
    exact ⟨hlt, (hbits _).mp ((allocated_iff hb).mp ha)⟩
  · intro ⟨hlt, hk⟩
    obtain ⟨botLvl, hb, hbits⟩ := h.botLvl hm hlt
    exact (allocated_iff hb).mpr ((hbits _).mpr hk)

/-! ## The boot-time slots -/

/-- What the recording is for: the slots below the first free one are marked, the others of the
`nCnodes` cnodes are not, all these cnodes are counted, and no sequence of calls answers a
boot-time slot that it did not free. -/
structure Records (firstFreeSlot nCnodes : Nat) (cs : CSpace) : Prop where
  used : ∀ c < firstFreeSlot, cs.Allocated c
  free : ∀ c, firstFreeSlot ≤ c → c < nCnodes * cnodeSlots → ¬ cs.Allocated c
  counted : ∀ t < nCnodes, cs.Created t
  kept : ∀ ops cs', Run (· = cs) call (fun _ _ => True) ops cs' → ∀ c cs'',
    CSpace.allocSlot cs' = .ok c cs'' → c < firstFreeSlot → .freeSlot c ∈ ops

/-- A call keeps a slot allocated, unless it frees it. -/
theorem allocated_call {cs cs' : CSpace} {a : Call} {c : Slot} (hc : cs.Allocated c)
    (ha : a ≠ .freeSlot c) (h : cs.call a = some cs') : cs'.Allocated c := by
  cases a with
  | allocSlot =>
    have hspec := CSpace.allocSlot_spec cs
    simp only [call] at h
    cases hm : CSpace.allocSlot cs with
    | ok c' cs₁ =>
      rw [hm] at h
      cases h
      exact ((Prog.wp_ok hspec hm).2 c).mpr (.inl hc)
    | err e cs₁ =>
      rw [hm] at h
      cases h
      exact Prog.wp_err hspec hm c hc
    | panic p =>
      rw [hm] at h
      cases h
  | freeSlot c' =>
    have hspec : (CSpace.freeSlot c' : Prog Panic CSpace Empty Unit).wp _ _ _ cs :=
      CSpace.freeSlot_spec cs c'
    simp only [call] at h
    cases hm : (CSpace.freeSlot c' : Prog Panic CSpace Empty Unit) cs with
    | ok u cs₁ =>
      rw [hm] at h
      cases h
      refine ((Prog.wp_ok hspec hm).1 c ?_).mpr hc
      rintro rfl
      exact ha rfl
    | err e cs₁ => exact e.elim
    | panic p =>
      rw [hm] at h
      cases h

theorem allocated_run {cs cs' : CSpace} {ops : List Call} {c : Slot} (hc : cs.Allocated c)
    (run : Run (· = cs) call (fun _ _ => True) ops cs') (hops : .freeSlot c ∉ ops) :
    cs'.Allocated c := by
  induction run with
  | init h => exact h ▸ hc
  | step _ _ hn ih =>
    rw [List.mem_append, not_or, List.mem_singleton] at hops
    exact allocated_call (ih hops.1) (Ne.symm hops.2) hn

/-- The used slots are recorded as intended exactly when at most one cnode is used up. -/
theorem recordUsed_iff {firstFreeSlot nCnodes : Nat} (hn : nCnodes ≤ initialTaskCnodeSlots)
    (hff : firstFreeSlot ≤ nCnodes * cnodeSlots) (firstFreeSlot₀ : Nat) :
    (∃ b, recordUsed firstFreeSlot nCnodes (.zeroed (nBotLvl firstFreeSlot₀ nCnodes)) = .ok () b ∧
      Records firstFreeSlot nCnodes b.toCSpace) ↔ firstFreeSlot < 2 * cnodeSlots := by
  have hF : firstFreeSlot / cnodeSlots ≤ nCnodes := by
    unfold cnodeSlots at *
    omega
  have hm : max (firstFreeSlot / cnodeSlots + 1) nCnodes ≤
      nBotLvl firstFreeSlot₀ nCnodes * botLvlPerNode := by
    unfold nBotLvl
    simp only [botLvlPerNode_eq]
    omega
  obtain ⟨_, b, hrun, hb⟩ := Prog.exists_ok (recordUsed_shows hm (Nat.le_trans hF hn))
  constructor
  · rintro ⟨b', hrun', hrec⟩
    cases hrun.symm.trans hrun'
    refine Nat.lt_of_not_le fun hle => ?_
    -- the second cnode is used up, and its bits were not set
    have hused := hrec.used cnodeSlots (by unfold cnodeSlots at *; omega)
    obtain ⟨-, hbits⟩ := (hb.allocated hm _).mp hused
    revert hbits
    unfold recordedBits topLvlIndex botLvlIndex cnodeSlots at *
    simp only [botLvlPerNode_eq] at *
    omega
  · intro hlt
    have hall : ∀ c < firstFreeSlot, b.toCSpace.Allocated c := by
      intro c hc
      rw [hb.allocated hm]
      unfold recordedBits topLvlIndex botLvlIndex cnodeSlots at *
      simp only [botLvlPerNode_eq] at *
      omega
    refine ⟨b, hrun, hall, ?_, ?_, ?_⟩
    · intro c hge hlt' ha
      obtain ⟨-, hbits⟩ := (hb.allocated hm _).mp ha
      revert hbits
      unfold recordedBits topLvlIndex botLvlIndex cnodeSlots at *
      simp only [botLvlPerNode_eq] at *
      omega
    · intro t ht
      rw [hb.created hm]
      omega
    · intro ops cs' run c cs'' halloc hc
      by_contra hops
      have hkept := allocated_run (hall c hc) run hops
      exact (Prog.wp_ok (CSpace.allocSlot_spec cs') halloc).1 hkept

/-- Slot 300 is given back; the next slot handed out is boot-time slot 256. -/
theorem recordUsed_600 : ∃ b cs cs', recordUsed 600 3 (.zeroed (nBotLvl 0 3)) = .ok () b ∧
    ¬ b.toCSpace.Allocated 256 ∧ b.toCSpace.call (.freeSlot 300) = some cs ∧
    CSpace.allocSlot cs = .ok 256 cs' := by
  have h : ((recordUsed 600 3 (.zeroed (nBotLvl 0 3))).toOption.bind fun r =>
      (r.2.toCSpace.call (.freeSlot 300)).bind fun cs =>
        (CSpace.allocSlot cs).toOption.map fun r' => (decide (r.2.toCSpace.Allocated 256), r'.1)) =
      some (false, 256) := by
    decide +kernel
  obtain ⟨⟨_, b⟩, hb, h⟩ := Option.bind_eq_some_iff.mp h
  obtain ⟨cs, hcs, h⟩ := Option.bind_eq_some_iff.mp h
  obtain ⟨⟨c, cs'⟩, halloc, h⟩ := Option.map_eq_some_iff.mp h
  obtain ⟨hnot, rfl⟩ := Prod.mk.inj h
  exact ⟨b, cs, cs', Outcome.toOption_eq_some.mp hb, of_decide_eq_false hnot, hcs,
    Outcome.toOption_eq_some.mp halloc⟩

/-- 300 slots of two cnodes. -/
theorem recordUsed_iff_300 :
    ∃ b, recordUsed 300 2 (.zeroed (nBotLvl 0 2)) = .ok () b ∧ Records 300 2 b.toCSpace :=
  (recordUsed_iff (by decide) (by decide) 0).mpr (by decide)

/-! ## Running out of slots -/

/-- The state that recording leaves. -/
def Recorded (firstFreeSlot₀ firstFreeSlot nCnodes : Nat) (cs : CSpace) : Prop :=
  ∃ b, recordUsed firstFreeSlot nCnodes (.zeroed (nBotLvl firstFreeSlot₀ nCnodes)) = .ok () b ∧
    b.toCSpace = cs

/-- What `alloc_slot` promises where slots run out: it does not panic, and an error says that
there is nothing left to hand out, changes nothing, and is over once a slot is given back. -/
structure AllocContract (cs : CSpace) : Prop where
  noPanic : ∀ p, CSpace.allocSlot cs ≠ .panic p
  exhausted : ∀ e cs', CSpace.allocSlot cs = .err e cs' → ∀ c, cs.Free c → Last c
  unchanged : ∀ e cs', CSpace.allocSlot cs = .err e cs' → cs' = cs
  recovers : ∀ e cs', CSpace.allocSlot cs = .err e cs' → ∀ c, cs.Returnable c →
    ∃ cs₁ cs₂, (CSpace.freeSlot c : Prog Panic CSpace Empty Unit) cs = .ok () cs₁ ∧
      CSpace.allocSlot cs₁ = .ok c cs₂

/-- A created cnode is not marked as full, or every cnode there can be is created and at most
one was used up by bootstrap; a slot that is freed is of a cnode whose last slot is clear. -/
def Ready (firstFreeSlot nCnodes : Nat) (cs : CSpace) : Call → Prop
  | .allocSlot => (∃ t < nCnodes, ¬ cs.topBf.Has t) ∨
      nCnodes = initialTaskCnodeSlots ∧ firstFreeSlot < 2 * cnodeSlots
  | .freeSlot c => ¬ Last c ∧ ¬ cs.Allocated (lastOf c)

instance (firstFreeSlot nCnodes : Nat) (cs : CSpace) :
    ∀ a : Call, Decidable (Ready firstFreeSlot nCnodes cs a)
  | .allocSlot => inferInstanceAs (Decidable (_ ∨ _))
  | .freeSlot _ => inferInstanceAs (Decidable (_ ∧ _))

/-- Runs from a recorded state are computed. -/
theorem recorded_steps {firstFreeSlot₀ firstFreeSlot nCnodes : Nat}
    {guard : CSpace → Call → Prop} [∀ cs a, Decidable (guard cs a)] {ops : List Call}
    {P : CSpace → Prop} [DecidablePred P]
    (h : ((recordUsed firstFreeSlot nCnodes
        (.zeroed (nBotLvl firstFreeSlot₀ nCnodes))).toOption.any fun r =>
      decide (Run.Guarded call guard r.2.toCSpace ops) &&
        (Run.steps call r.2.toCSpace ops).any fun cs => decide (P cs)) = true) :
    ∃ cs, Run (Recorded firstFreeSlot₀ firstFreeSlot nCnodes) call guard ops cs ∧ P cs := by
  obtain ⟨⟨_, b⟩, hb, h⟩ := (Option.any_eq_true _ _).mp h
  obtain ⟨hg, hs⟩ := Bool.and_eq_true_iff.mp h
  exact Run.exists_of_steps ⟨b, Outcome.toOption_eq_some.mp hb, rfl⟩ (of_decide_eq_true hg) hs

/-- What the calls keep. -/
structure Managed (firstFreeSlot nCnodes : Nat) (cs : CSpace) : Prop where
  sized : cs.Sized
  isOpen : cs.Open
  created : ∀ t, cs.Created t ↔ t < nCnodes
  slots : cs.topLvlSlots = initialTaskCnodeSlots
  wellFormed : firstFreeSlot < 2 * cnodeSlots → cs.WellFormed

theorem Shows.managed {firstFreeSlot nCnodes : Nat} (hn : nCnodes ≤ initialTaskCnodeSlots)
    (h255 : firstFreeSlot % cnodeSlots ≠ cnodeSlots - 1)
    (hm : nCnodes ≤ blocks * botLvlPerNode)
    (h : Shows b blocks nCnodes (fun t => t < firstFreeSlot / cnodeSlots)
      (recordedBits firstFreeSlot)) :
    Managed firstFreeSlot nCnodes b.toCSpace := by
  have hcreated := h.created hm
  have halloc := h.allocated hm
  have hsized : b.toCSpace.Sized :=
    { top := by
        show initialTaskCnodeSlots = wordBits * b.topBf.length
        rw [h.length]
        decide
      created := fun t ht => Nat.lt_of_lt_of_le ((hcreated t).mp ht) hn }
  have hnotFull : ∀ t, b.toCSpace.Created t → ¬ t < firstFreeSlot / cnodeSlots →
      ¬ b.toCSpace.Full t := by
    intro t _ hge hfull
    -- the slot before the last one is clear
    have h254 := hfull (t * cnodeSlots + 254) (topLvlIndex_join (by decide)) (by
      rw [Last, botLvlIndex_join (by decide)]
      decide)
    obtain ⟨-, hbits⟩ := (halloc _).mp h254
    rw [topLvlIndex_join (by decide), botLvlIndex_join (by decide)] at hbits
    unfold recordedBits cnodeSlots at *
    omega
  have hlast : ∀ c, Last c → b.toCSpace.Allocated c → topLvlIndex c < firstFreeSlot / cnodeSlots ∧
      topLvlIndex c % botLvlPerNode = 0 := by
    intro c hl ha
    obtain ⟨-, hbits⟩ := (halloc c).mp ha
    rw [show botLvlIndex c = cnodeSlots - 1 from hl] at hbits
    have := Nat.mod_lt firstFreeSlot (show 0 < cnodeSlots by decide)
    unfold recordedBits cnodeSlots at *
    omega
  have hfull : ∀ t, b.toCSpace.Created t → t < firstFreeSlot / cnodeSlots →
      t % botLvlPerNode = 0 → b.toCSpace.Full t := by
    rintro t ht hlt h0 c rfl _
    exact (halloc c).mpr ⟨(hcreated _).mp ht, .inl ⟨h0, hlt, botLvlIndex_lt c⟩⟩
  exact
    { sized := hsized
      isOpen := by
        intro t ht hclear
        have hge : ¬ t < firstFreeSlot / cnodeSlots := mt (h.top t).mpr hclear
        refine ⟨hnotFull t ht hge, ?_⟩
        rintro c rfl hl ha
        exact hge (hlast c hl ha).1
      created := hcreated
      slots := rfl
      wellFormed := by
        intro hlt
        refine ⟨hsized, fun t ht => (h.top t).trans ⟨fun hlt' => hfull t ht hlt' ?_, fun hf => ?_⟩,
          fun c hl ha => hfull _ ha.created (hlast c hl ha).1 (hlast c hl ha).2⟩
        · unfold cnodeSlots at *
          simp only [botLvlPerNode_eq] at *
          omega
        · by_contra hge
          exact hnotFull t ht hge hf }

theorem Recorded.managed {firstFreeSlot₀ firstFreeSlot nCnodes : Nat} {cs : CSpace}
    (hn : nCnodes ≤ initialTaskCnodeSlots) (hff : firstFreeSlot < nCnodes * cnodeSlots)
    (h255 : firstFreeSlot % cnodeSlots ≠ cnodeSlots - 1)
    (h : Recorded firstFreeSlot₀ firstFreeSlot nCnodes cs) :
    Managed firstFreeSlot nCnodes cs := by
  obtain ⟨b, hrun, rfl⟩ := h
  have hF : firstFreeSlot / cnodeSlots < nCnodes := Nat.div_lt_of_lt_mul (by
    rwa [Nat.mul_comm] at hff)
  have hmax : max (firstFreeSlot / cnodeSlots + 1) nCnodes = nCnodes := Nat.max_eq_right hF
  have hm : nCnodes ≤ nBotLvl firstFreeSlot₀ nCnodes * botLvlPerNode := by
    unfold nBotLvl
    simp only [botLvlPerNode_eq]
    omega
  have hshows := Prog.wp_ok (recordUsed_shows (by rw [hmax]; exact hm) (by omega)) hrun
  rw [hmax] at hshows
  exact hshows.managed hn h255 hm

variable {firstFreeSlot nCnodes : Nat} {cs cs' : CSpace} {c : Slot}

theorem Managed.takes (h : Managed firstFreeSlot nCnodes cs) (ht : cs.Takes c cs') :
    Managed firstFreeSlot nCnodes cs' where
  sized := ht.sized h.sized
  isOpen := ht.isOpen h.isOpen
  created t := (ht.created t).trans (h.created t)
  slots := ht.size.trans h.slots
  wellFormed hlt := ht.wellFormed (h.wellFormed hlt)

theorem Managed.gives (h : Managed firstFreeSlot nCnodes cs) (hl : ¬ Last c)
    (hlast : ¬ cs.Allocated (lastOf c)) (hg : cs.Gives c cs') :
    Managed firstFreeSlot nCnodes cs' where
  sized := hg.sized h.sized
  isOpen := hg.isOpen hl hlast h.isOpen
  created t := (hg.created t).trans (h.created t)
  slots := hg.size.trans h.slots
  wellFormed hlt := hg.wellFormed hl hlast (h.wellFormed hlt)

theorem Managed.call {a : Call} (h : Managed firstFreeSlot nCnodes cs)
    (hr : Ready firstFreeSlot nCnodes cs a) (hcall : cs.call a = some cs') :
    Managed firstFreeSlot nCnodes cs' := by
  cases a with
  | allocSlot =>
    have hspec := allocSlot_takes h.sized h.isOpen
    simp only [CSpace.call] at hcall
    cases hm : CSpace.allocSlot cs with
    | ok c cs₁ =>
      rw [hm] at hcall
      cases hcall
      exact h.takes (Prog.wp_ok hspec hm)
    | err e cs₁ =>
      rw [hm] at hcall
      cases hcall
      rw [(Prog.wp_err hspec hm).1]
      exact h
    | panic p =>
      rw [hm] at hcall
      cases hcall
  | freeSlot c =>
    have hspec := freeSlot_cases Empty cs c
    simp only [CSpace.call] at hcall
    cases hm : (CSpace.freeSlot c : Prog Panic CSpace Empty Unit) cs with
    | ok u cs₁ =>
      rw [hm] at hcall
      cases hcall
      obtain rfl | hg := Prog.wp_ok hspec hm
      · exact h
      · exact h.gives hr.1 hr.2 hg
    | err e cs₁ => exact e.elim
    | panic p =>
      rw [hm] at hcall
      cases hcall

/-- A slot given back is the next one handed out, when nothing else is left. -/
theorem Managed.recovers (h : Managed firstFreeSlot nCnodes cs) (hnone : ∀ c, cs.Free c → Last c)
    (hr : cs.Returnable c) :
    ∃ cs₁ cs₂, (CSpace.freeSlot c : Prog Panic CSpace Empty Unit) cs = .ok () cs₁ ∧
      CSpace.allocSlot cs₁ = .ok c cs₂ := by
  obtain ⟨cs₁, hfree, hg⟩ := freeSlot_gives Empty h.sized hr.1 hr.2.1.created
  have h₁ := h.gives hr.notLast hr.2.2 hg
  have hc : cs₁.Created (topLvlIndex c) := (hg.created _).mpr hr.2.1.created
  have hclear : ¬ cs₁.topBf.Has (topLvlIndex c) := fun hb => ((hg.topBf _).mp hb).2 rfl
  obtain ⟨c', cs₂, halloc, ht⟩ := allocSlot_ok h₁.sized h₁.isOpen (fun t ht =>
    (h₁.created t).mpr (Nat.lt_of_le_of_lt ht ((h₁.created _).mp hc))) hclear
  have hc' : c' = c := by
    by_contra hne
    refine ht.notLast (hnone c' ⟨(hg.created _).mp ht.free.1, fun ha => ht.free.2 ?_⟩)
    exact (hg.allocated_of_ne hne).mpr ha
  exact ⟨cs₁, cs₂, hfree, hc' ▸ halloc⟩

theorem Managed.allocContract (h : Managed firstFreeSlot nCnodes cs) (hr : Ready firstFreeSlot nCnodes cs .allocSlot) :
    AllocContract cs := by
  have hspec := allocSlot_takes h.sized h.isOpen
  obtain ⟨t, ht, hclear⟩ | ⟨hall, hlt⟩ := hr
  · -- a cnode is not marked: the allocation succeeds
    obtain ⟨c, cs', hm, -⟩ := allocSlot_ok h.sized h.isOpen (fun t' ht' =>
      (h.created t').mpr (Nat.lt_of_le_of_lt ht' ht)) hclear
    have herr : ∀ e cs', CSpace.allocSlot cs ≠ .err e cs' := by
      intro e cs' he
      rw [hm] at he
      cases he
    refine ⟨fun p hp => ?_, fun e cs' he => absurd he (herr e cs'),
      fun e cs' he => absurd he (herr e cs'), fun e cs' he => absurd he (herr e cs')⟩
    rw [hm] at hp
    cases hp
  · have hwf := h.wellFormed hlt
    have hnone : ∀ e cs', CSpace.allocSlot cs = .err e cs' → ∀ c, cs.Free c → Last c := by
      intro e cs' he c hfree
      by_contra hl
      have hmark := (Prog.wp_err hspec he).2 _ (h.sized.created _ hfree.1)
      exact hfree.2 ((hwf.topBits _ hfree.1).mp hmark c rfl hl)
    refine ⟨fun p hp => ?_, hnone, fun e cs' he => (Prog.wp_err hspec he).1,
      fun e cs' he c hr => h.recovers (hnone e cs' he) hr⟩
    obtain ⟨-, t, hfirst, hnot⟩ := Prog.wp_panic_of hspec hp
    refine hnot ((h.created t).mpr ?_)
    rw [hall, ← h.slots]
    exact h.sized.lt_of_inRange (Bitfield.bfFirstFree_spec hfirst).1

/-- In every run of ready calls from a recorded state, `alloc_slot` keeps its promise. -/
theorem allocSlot_run {firstFreeSlot₀ : Nat} {ops : List Call}
    (hn : nCnodes ≤ initialTaskCnodeSlots) (hff : firstFreeSlot < nCnodes * cnodeSlots)
    (h255 : firstFreeSlot % cnodeSlots ≠ cnodeSlots - 1)
    (run : Run (Recorded firstFreeSlot₀ firstFreeSlot nCnodes) call (Ready firstFreeSlot nCnodes)
      ops cs) (hr : Ready firstFreeSlot nCnodes cs .allocSlot) : AllocContract cs := by
  have hm : Managed firstFreeSlot nCnodes cs :=
    run.invariant (fun _ h => h.managed hn hff h255) fun _ _ _ h hr hcall => h.call hr hcall
  exact hm.allocContract hr

/-- Slot 300 of three cnodes is taken, given back and taken again. -/
theorem allocSlot_run_300 : ∃ cs, Run (Recorded 0 300 3) call (Ready 300 3)
    [.allocSlot, .freeSlot 300, .allocSlot] cs ∧ AllocContract cs := by
  have hrun : ∃ cs, Run (Recorded 0 300 3) call (Ready 300 3)
      [.allocSlot, .freeSlot 300, .allocSlot] cs ∧ ¬ cs.topBf.Has 1 :=
    recorded_steps (by decide +kernel)
  obtain ⟨cs, run, hclear⟩ := hrun
  exact ⟨cs, run, allocSlot_run (by decide) (by decide) (by decide) run
    (.inl ⟨1, by decide, hclear⟩)⟩

/-- Two cnodes, 266 slots used at boot. Slot 5 is given back, and marked again by an
`alloc_slot` that fails although slots are free. With one cnode, the last slot but one is
handed out and the next call panics. -/
theorem allocSlot_not_run :
    (∃ cs, Run (Recorded 0 266 2) call (fun _ _ => True) [.freeSlot 5] cs ∧
      ∃ cs', CSpace.allocSlot cs = .err .notEnoughMemory cs' ∧ ¬ cs.Allocated 5 ∧ cs'.Allocated 5 ∧
        cs.Free 300 ∧ ¬ Last 300) ∧
    ∃ cs, Run (Recorded 0 254 1) call (fun _ _ => True) [.allocSlot] cs ∧
      CSpace.allocSlot cs = .panic .notImplemented := by
  constructor
  · have hrun : ∃ cs, Run (Recorded 0 266 2) call (fun _ _ => True) [.freeSlot 5] cs ∧
        ((CSpace.allocSlot cs).toError.any fun r =>
          r.1 == .notEnoughMemory && decide (r.2.Allocated 5)) =
          true ∧ ¬ cs.Allocated 5 ∧ cs.Free 300 :=
      recorded_steps (by decide +kernel)
    obtain ⟨cs, run, herr, hnot, hfree⟩ := hrun
    obtain ⟨⟨e, cs'⟩, hr, h⟩ := (Option.any_eq_true _ _).mp herr
    obtain ⟨he, ha⟩ := Bool.and_eq_true_iff.mp h
    obtain rfl : e = .notEnoughMemory := eq_of_beq he
    exact ⟨cs, run, cs', Outcome.toError_eq_some.mp hr, hnot, of_decide_eq_true ha, hfree,
      by decide⟩
  · have hrun : ∃ cs, Run (Recorded 0 254 1) call (fun _ _ => True) [.allocSlot] cs ∧
        (CSpace.allocSlot cs).toPanic = some .notImplemented :=
      recorded_steps (by decide +kernel)
    obtain ⟨cs, run, hp⟩ := hrun
    exact ⟨cs, run, Outcome.toPanic_eq_some.mp hp⟩

end Bootstrap

end Smos.RootServer
