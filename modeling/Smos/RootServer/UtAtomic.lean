/-
Smos.RootServer.UtAtomic — what an allocation that fails leaves behind.

An allocation that returns an error should leave the memory, the spare nodes
and the slots as they were. Where `ensure_new_structures` gets as far as
taking a page it does not: a slot or a kernel call that fails after that
loses the page. A split that fails late may lose a node, since the error of
`cspace.delete(cslot1)?` is returned at once.

`utAllocAnswering` is `utAlloc` where the kernel's answer to that deletion is
given from outside; everywhere else a deletion succeeds. Which table an
allocation cannot damage is decided before the first kernel call
(`Guarded`): either there is no split, or the split stops at once, for lack
of a page for new nodes.
-/
import Mathlib.Algebra.BigOperators.Group.List.Basic
import Smos.RootServer.SlotSet
import Smos.RootServer.UtPartition

namespace Smos.RootServer

open Smos.Base

/-! ## The deletion in a split -/

/-- `cspace.delete(c)?`, with the kernel's answer. -/
def deleteAnswering (answer : Except Sel4Error Unit) (c : Slot) : RProg Sel4Error Unit :=
  match answer with
  | .ok () => deleteCap c
  | .error e => Prog.fail e

/-- `utSplit`, with the kernel's answer to the deletion. -/
def utSplitAnswering (answer : Except Sel4Error Unit) (larger : UT) (sizeBits : Nat) :
    RProg Sel4Error Unit := do
  ensureNewStructures.catchErr fun e => do
    utFree larger
    Prog.fail e
  let new1 ← popStructure.catchErr fun e => do
    utFree larger
    Prog.fail e
  let cslot1 ← allocSlot.catchErr fun e => do
    utFree larger
    pushStructure new1
    Prog.fail e
  let new2 ← popStructure.catchErr fun e => do
    utFree larger
    pushStructure new1
    freeSlot cslot1
    Prog.fail e
  let cslot2 ← allocSlot.catchErr fun e => do
    utFree larger
    pushStructure new1
    freeSlot cslot1
    pushStructure new2
    Prog.fail e
  (untypedRetype (.other (.untyped sizeBits)) cslot1).catchErr fun e => do
    utFree larger
    pushStructure new1
    freeSlot cslot1
    pushStructure new2
    freeSlot cslot2
    Prog.fail e
  (untypedRetype (.other (.untyped sizeBits)) cslot2).catchErr fun e => do
    utFree larger
    pushStructure new1
    deleteAnswering answer cslot1
    freeSlot cslot1
    pushStructure new2
    freeSlot cslot2
    Prog.fail e
  utFree ⟨new1, cslot1, sizeBits⟩
  utFree ⟨new2, cslot2, sizeBits⟩

def utAllocBelowAnswering (answer : Except Sel4Error Unit) : Nat → RProg Sel4Error UT
  | 0 => alloc4kUntyped
  | n + 1 => do
    let sizeBits := pageBits4K - (n + 1)
    if (← Prog.gets fun r => (r.ut.freeUntypeds sizeBits).isEmpty) then
      let larger ← utAllocBelowAnswering answer n
      utSplitAnswering answer larger sizeBits
    popUt sizeBits

/-- `UTTable::alloc`, with the kernel's answer to the deletion. -/
def utAllocAnswering (answer : Except Sel4Error Unit) (sizeBits : Nat) : RProg Sel4Error UT :=
  if sizeBits > pageBits4K then Prog.fail .invalidArgument
  else if sizeBits < endpointBits then Prog.fail .invalidArgument
  else utAllocBelowAnswering answer (pageBits4K - sizeBits)

theorem utSplitAnswering_ok (larger : UT) (sizeBits : Nat) :
    utSplitAnswering (.ok ()) larger sizeBits = utSplit larger sizeBits := rfl

theorem utAllocBelowAnswering_ok (n : Nat) : utAllocBelowAnswering (.ok ()) n = utAllocBelow n := by
  induction n with
  | zero => rfl
  | succ n ih =>
    rw [utAllocBelowAnswering, utAllocBelow, ih]
    rfl

/-- With a deletion that succeeds, this is `utAlloc`. -/
theorem utAllocAnswering_ok (sizeBits : Nat) :
    utAllocAnswering (.ok ()) sizeBits = utAlloc sizeBits := by
  rw [utAllocAnswering, utAlloc, utAllocBelowAnswering_ok]

/-! ## When an allocation is atomic -/

namespace UTTable

/-- The free memory, in bytes. -/
def freeMemory (t : UTTable) : Nat := (t.free.map fun ut => 2 ^ ut.sizeBits).sum

/-- The size of the block that `alloc` splits first. -/
structure Splits (t : UTTable) (sizeBits b : Nat) : Prop where
  larger : sizeBits < b
  size : b ≤ pageBits4K
  free : t.freeUntypeds b ≠ []
  least : ∀ b', sizeBits < b' → b' < b → t.freeUntypeds b' = []

/-- There is no page for new nodes, once the block to split is taken. -/
def Starved (t : UTTable) (sizeBits : Nat) : Prop :=
  t.freeStructures.length ≤ 1 ∧ ∀ b, t.Splits sizeBits b →
    (t.setList b (t.freeUntypeds b).tail).freeUntypeds pageBits4K = []

/-- No kernel call and no slot is needed before `alloc` gives its answer. -/
def Guarded (t : UTTable) (sizeBits : Nat) : Prop :=
  sizeBits ∉ sizes ∨ t.freeUntypeds sizeBits ≠ [] ∨ (∀ b, ¬ t.Splits sizeBits b) ∨
    t.Starved sizeBits

end UTTable

/-- What an allocation that failed must have left as it was. -/
structure Restored (sizeBits : Nat) (r r' : Res) : Prop where
  memory : r'.ut.freeMemory = r.ut.freeMemory
  nodes : r'.ut.freeStructures.Perm r.ut.freeStructures
  slots : ∀ c, r'.cspace.Allocated c ↔ r.cspace.Allocated c
  /-- What would have helped before the call helps after it. -/
  retry : ∀ kernel cspace,
    (∃ ut r₁, utAlloc sizeBits { r with kernel := kernel, cspace := cspace } = .ok ut r₁) →
      ∃ ut r₁, utAlloc sizeBits { r' with kernel := kernel, cspace := cspace } = .ok ut r₁

theorem Restored.refl (sizeBits : Nat) (r : Res) : Restored sizeBits r r :=
  ⟨rfl, .refl _, fun _ => Iff.rfl, fun _ _ h => h⟩

/-- Whatever the kernel and the slot allocator answer, an allocation that fails from this table
leaves everything as it was. -/
def Atomic (t : UTTable) (sizeBits : Nat) : Prop :=
  ∀ answer res, res.ut = t → res.cspace.WellFormed → ∀ e r',
    utAllocAnswering answer sizeBits res = .err e r' → Restored sizeBits res r'

/-! ## Up to the first split -/

section Levels

open UTTable

variable {answer : Except Sel4Error Unit} {r r' : Res} {ut larger : UT} {rest : List UT}
  {e : Sel4Error} {b m n : Nat}

theorem popUt_run (h : r.ut.freeUntypeds b = ut :: rest) :
    popUt b r = .ok ut { r with ut := r.ut.setList b rest } := by
  refine Prog.eq_ok_of_wp ?_
  simp only [popUt, Prog.wp_bind, Prog.wp_gets, h]
  exact ⟨rfl, rfl⟩

theorem alloc4kUntyped_run (h : r.ut.freeUntypeds pageBits4K = ut :: rest) :
    alloc4kUntyped r = .ok ut { r with ut := r.ut.setList pageBits4K rest } := by
  refine Prog.eq_ok_of_wp ?_
  simp only [alloc4kUntyped, Prog.wp_bind, Prog.wp_gets, h]
  exact ⟨rfl, rfl⟩

theorem alloc4kUntyped_nil (h : r.ut.freeUntypeds pageBits4K = []) :
    alloc4kUntyped r = .err .notEnoughMemory r := by
  rw [alloc4kUntyped, Prog.gets_bind, h]
  rfl

/-- A free block is taken as it is. -/
theorem answering_free (h : r.ut.freeUntypeds (pageBits4K - n) = ut :: rest) :
    utAllocBelowAnswering answer n r =
      .ok ut { r with ut := r.ut.setList (pageBits4K - n) rest } := by
  cases n with
  | zero => exact alloc4kUntyped_run h
  | succ n =>
    rw [utAllocBelowAnswering, Prog.gets_bind, h]
    exact popUt_run h

/-- An error of the larger size is the answer. -/
theorem answering_err (hnil : r.ut.freeUntypeds (pageBits4K - (n + 1)) = [])
    (h : utAllocBelowAnswering answer n r = .err e r') :
    utAllocBelowAnswering answer (n + 1) r = .err e r' := by
  rw [utAllocBelowAnswering, Prog.gets_bind, hnil]
  exact Prog.bind_of_err h

/-- So it goes through all sizes without a free block. -/
theorem answering_err_up (hm : m ≤ n)
    (hnil : ∀ k, m < k → k ≤ n → r.ut.freeUntypeds (pageBits4K - k) = [])
    (h : utAllocBelowAnswering answer m r = .err e r') :
    utAllocBelowAnswering answer n r = .err e r' := by
  induction n, hm using Nat.le_induction with
  | base => exact h
  | succ n hm ih =>
    refine answering_err (hnil (n + 1) (Nat.lt_succ_of_le hm) (Nat.le_refl _)) (ih ?_)
    intro k hlt hle
    exact hnil k hlt (Nat.le_succ_of_le hle)

/-- A split that fails. -/
theorem answering_split (hnil : r.ut.freeUntypeds (pageBits4K - (n + 1)) = [])
    (hlist : r.ut.freeUntypeds (pageBits4K - n) = larger :: rest)
    (h : utSplitAnswering answer larger (pageBits4K - (n + 1))
      { r with ut := r.ut.setList (pageBits4K - n) rest } = .err e r') :
    utAllocBelowAnswering answer (n + 1) r = .err e r' := by
  rw [utAllocBelowAnswering, Prog.gets_bind, hnil]
  exact (Prog.bind_of_ok (answering_free hlist)).trans (Prog.bind_of_err h)

/-- `alloc` answers the error of the first split. -/
theorem answering_first_split {sizeBits : Nat} (hsize : sizeBits ∈ sizes)
    (hnil : r.ut.freeUntypeds sizeBits = []) (hb : r.ut.Splits sizeBits b)
    (hlist : r.ut.freeUntypeds b = larger :: rest)
    (h : utSplitAnswering answer larger (b - 1) { r with ut := r.ut.setList b rest } = .err e r') :
    utAllocAnswering answer sizeBits r = .err e r' := by
  obtain ⟨hlow, hhigh⟩ := mem_sizes.mp hsize
  obtain ⟨hlt, hle, -, hleast⟩ := hb
  have hempty : ∀ b', sizeBits ≤ b' → b' < b → r.ut.freeUntypeds b' = [] := by
    intro b' hge hlt'
    obtain rfl | hgt := Nat.eq_or_lt_of_le hge
    · exact hnil
    · exact hleast b' hgt hlt'
  have hsub : pageBits4K - (pageBits4K - b) = b := Nat.sub_sub_self hle
  have hsub' : pageBits4K - (pageBits4K - b + 1) = b - 1 := by omega
  rw [utAllocAnswering, if_neg (Nat.not_lt.mpr hhigh), if_neg (Nat.not_lt.mpr hlow)]
  refine answering_err_up (m := pageBits4K - b + 1) (by omega) (fun k hk hk' => ?_) ?_
  · exact hempty _ (by omega) (by omega)
  · refine answering_split ?_ (by rwa [hsub]) (by rwa [hsub, hsub'])
    rw [hsub']
    exact hempty _ (by omega) (by omega)

/-- No block at all. -/
theorem answering_none (hnil : ∀ k ≤ n, r.ut.freeUntypeds (pageBits4K - k) = []) :
    utAllocBelowAnswering answer n r = .err .notEnoughMemory r := by
  refine answering_err_up (m := 0) (Nat.zero_le n) (fun k _ hk => hnil k hk) ?_
  exact alloc4kUntyped_nil (hnil 0 (Nat.zero_le n))

end Levels

/-! ## A table that is not damaged -/

section Guarded

open UTTable

variable {answer : Except Sel4Error Unit} {r r' : Res} {t : UTTable} {ut larger : UT}
  {rest : List UT} {e : Sel4Error} {sizeBits b n : Nat}

theorem UTTable.exists_splits (hlt : sizeBits < b) (hle : b ≤ pageBits4K)
    (hne : t.freeUntypeds b ≠ []) : ∃ b, t.Splits sizeBits b := by
  classical
  have hex : ∃ b, sizeBits < b ∧ b ≤ pageBits4K ∧ t.freeUntypeds b ≠ [] := ⟨b, hlt, hle, hne⟩
  obtain ⟨hlt', hle', hne'⟩ := Nat.find_spec hex
  refine ⟨Nat.find hex, hlt', hle', hne', fun b' hgt hb' => ?_⟩
  by_contra hfree
  exact Nat.find_min hex hb' ⟨hgt, hb'.le.trans hle', hfree⟩

/-- A block that is taken and freed again. -/
theorem UTTable.setList_push (hlist : t.freeUntypeds b = ut :: rest) (hsize : ut.sizeBits = b) :
    (t.setList b rest).push ut = t := by
  subst hsize
  simp only [push, setList, Function.update_self, Function.update_idem, ← hlist,
    Function.update_eq_self]

/-- When there are no new nodes, the larger block is free again. -/
theorem split_of_ensure_err (h : ensureNewStructures r = .err e r') :
    utSplitAnswering answer larger n r = .err e { r' with ut := r'.ut.push larger } := by
  refine Prog.bind_of_err ?_
  rw [Prog.catchErr_of_err h]
  rfl

theorem ensureNewStructures_starved (hspare : r.ut.freeStructures.length ≤ 1)
    (hnil : r.ut.freeUntypeds pageBits4K = []) :
    ensureNewStructures r = .err .notEnoughMemory r := by
  rw [ensureNewStructures, Prog.gets_bind, if_pos hspare]
  exact Prog.bind_of_err (alloc4kUntyped_nil hnil)

/-- An allocation that fails from such a table changes nothing at all. -/
theorem UTTable.Guarded.unchanged (h : r.ut.Guarded sizeBits)
    (hsizes : ∀ b, ∀ ut ∈ r.ut.freeUntypeds b, ut.sizeBits = b)
    (herr : utAllocAnswering answer sizeBits r = .err e r') : r' = r := by
  by_cases hsize : sizeBits ∈ sizes
  swap
  · rw [mem_sizes, not_and_or, Nat.not_le, Nat.not_le] at hsize
    rw [utAllocAnswering] at herr
    split at herr
    · cases herr
      rfl
    · rw [if_pos (by omega)] at herr
      cases herr
      rfl
  obtain ⟨hlow, hhigh⟩ := mem_sizes.mp hsize
  have hsub : pageBits4K - (pageBits4K - sizeBits) = sizeBits := Nat.sub_sub_self hhigh
  cases hfree : r.ut.freeUntypeds sizeBits with
  | cons ut rest =>
    rw [utAllocAnswering, if_neg (Nat.not_lt.mpr hhigh), if_neg (Nat.not_lt.mpr hlow),
      answering_free (by rw [hsub]; exact hfree)] at herr
    cases herr
  | nil =>
    by_cases hex : ∃ b, r.ut.Splits sizeBits b
    · obtain ⟨b, hb⟩ := hex
      obtain ⟨larger, rest, hlist⟩ := List.exists_cons_of_ne_nil hb.free
      have hstarved : r.ut.Starved sizeBits := by
        obtain hs | hne | hno | hst := h
        · exact absurd hsize hs
        · exact absurd hfree hne
        · exact absurd hb (hno b)
        · exact hst
      have hpage := hstarved.2 b hb
      rw [hlist, List.tail_cons] at hpage
      have hsplit : utAllocAnswering answer sizeBits r = _ := answering_first_split hsize hfree hb
        hlist (split_of_ensure_err (ensureNewStructures_starved hstarved.1 hpage))
      rw [hsplit] at herr
      cases herr
      rw [setList_push hlist (hsizes b larger (hlist ▸ List.mem_cons_self))]
    · have hall : ∀ b, sizeBits ≤ b → b ≤ pageBits4K → r.ut.freeUntypeds b = [] := by
        intro b hge hle
        obtain rfl | hgt := Nat.eq_or_lt_of_le hge
        · exact hfree
        · by_contra hne
          exact hex (exists_splits hgt hle hne)
      rw [utAllocAnswering, if_neg (Nat.not_lt.mpr hhigh), if_neg (Nat.not_lt.mpr hlow),
        answering_none fun k hk => hall _ (by omega) (by omega)] at herr
      cases herr
      rfl

end Guarded

/-! ## A table that is damaged -/

section Damaged

open UTTable

variable {r : Res} {t : UTTable} {ut larger page : UT} {rest : List UT} {sizeBits b n : Nat}

theorem UTTable.freeMemory_push (h : ut.sizeBits ∈ sizes) :
    (t.push ut).freeMemory = 2 ^ ut.sizeBits + t.freeMemory := by
  unfold freeMemory
  rw [((push_free h).map _).sum_eq, List.map_cons, List.sum_cons]

theorem UTTable.freeMemory_setList (h : t.freeUntypeds b = ut :: rest) (hb : b ∈ sizes) :
    t.freeMemory = 2 ^ ut.sizeBits + (t.setList b rest).freeMemory := by
  unfold freeMemory
  rw [((setList_free h hb).map _).sum_eq, List.map_cons, List.sum_cons]

/-! One slot after the other is taken, and the kernel finds the slot `c` occupied. -/

def takenOne : CSpace := CSpace.single 0 ⟨[3, 0, 0, 0], rfl⟩

def takenTwo : CSpace := CSpace.single 0 ⟨[7, 0, 0, 0], rfl⟩

def occupied (c : Slot) : Kernel :=
  { demo.res.kernel with caps := fun c' => if c' = c then some (.pageTable false) else none }

theorem allocSlot_fresh (h : r.cspace = CSpace.fresh) :
    allocSlot r = .ok 1 { r with cspace := takenOne } := by
  have hrun : CSpace.allocSlot CSpace.fresh = .ok 1 takenOne := rfl
  rw [allocSlot, Prog.zoom, h, hrun]

theorem allocSlot_takenOne (h : r.cspace = takenOne) :
    allocSlot r = .ok 2 { r with cspace := takenTwo } := by
  have hrun : CSpace.allocSlot takenOne = .ok 2 takenTwo := rfl
  rw [allocSlot, Prog.zoom, h, hrun]

theorem untypedRetype_occupied {bp : ObjectBlueprint} {c : Slot} (h : (r.kernel.caps c).isSome) :
    untypedRetype bp c r = .err .deleteFirst r := by
  rw [untypedRetype, kcall, Prog.zoom, Prog.ofExcept, Kernel.untypedRetype, if_pos h]

/-- The page for new nodes is gone when it cannot be retyped. -/
theorem ensureNewStructures_occupied (hspare : r.ut.freeStructures.length ≤ 1)
    (hlist : r.ut.freeUntypeds pageBits4K = page :: rest) (hcs : r.cspace = CSpace.fresh)
    (hk : r.kernel = occupied 1) : ensureNewStructures r = .err .deleteFirst
      { r with ut := r.ut.setList pageBits4K rest, cspace := takenOne } := by
  have hslot : allocSlot { r with ut := r.ut.setList pageBits4K rest } = _ := allocSlot_fresh hcs
  rw [ensureNewStructures, Prog.gets_bind, if_pos hspare]
  refine (Prog.bind_of_ok (alloc4kUntyped_run hlist)).trans ((Prog.bind_of_ok hslot).trans ?_)
  refine Prog.bind_of_err (untypedRetype_occupied ?_)
  simp [hk, occupied]

/-- A split that needs new nodes loses a page where there is one to lose. -/
theorem Atomic.starved (h : Atomic t sizeBits) (hsize : sizeBits ∈ sizes)
    (hnil : t.freeUntypeds sizeBits = []) (hspare : t.freeStructures.length ≤ 1)
    (hsizes : ∀ b, ∀ ut ∈ t.freeUntypeds b, ut.sizeBits = b ∧ b ∈ sizes) :
    t.Starved sizeBits := by
  refine ⟨hspare, fun b hb => ?_⟩
  by_contra hne
  obtain ⟨larger, rest, hlist⟩ := List.exists_cons_of_ne_nil hb.free
  obtain ⟨hbits, hmem⟩ := hsizes b larger (hlist ▸ List.mem_cons_self)
  rw [hlist, List.tail_cons] at hne
  obtain ⟨page, rest', hpage⟩ := List.exists_cons_of_ne_nil hne
  have hpageBits : page.sizeBits = pageBits4K := by
    by_cases hb12 : pageBits4K = b
    · subst hb12
      rw [setList_self] at hpage
      exact (hsizes _ page (by rw [hlist, hpage]; simp)).1
    · rw [setList_of_ne hb12] at hpage
      exact (hsizes _ page (hpage ▸ List.mem_cons_self)).1
  let res : Res := { demo.res with kernel := occupied 1, cspace := CSpace.fresh, ut := t }
  have hensure := ensureNewStructures_occupied (r := { res with ut := t.setList b rest }) hspare
    hpage rfl rfl
  have hsplit : utSplitAnswering (.ok ()) larger (b - 1) _ = _ := split_of_ensure_err hensure
  have hrun := answering_first_split (r := res) hsize hnil hb hlist hsplit
  have hmemory := (h _ res rfl CSpace.fresh_wellFormed _ _ hrun).memory
  have htaken := freeMemory_setList hlist hmem
  have hlost := freeMemory_setList hpage (by decide)
  have hpushed : (((t.setList b rest).setList pageBits4K rest').push larger).freeMemory = _ :=
    freeMemory_push (hbits.symm ▸ hmem)
  have hpos : 0 < 2 ^ page.sizeBits := Nat.two_pow_pos _
  change (((t.setList b rest).setList pageBits4K rest').push larger).freeMemory =
    t.freeMemory at hmemory
  omega

/-- A split has its two nodes and slots. -/
theorem ensureNewStructures_spare (h : 1 < r.ut.freeStructures.length) :
    ensureNewStructures r = .ok () r := by
  rw [ensureNewStructures, Prog.gets_bind, if_neg (Nat.not_le.mpr h)]
  rfl

theorem popStructure_run {p : Nat} {spare : List Nat} (h : r.ut.freeStructures = p :: spare) :
    popStructure r = .ok p { r with ut := r.ut.setSpare spare } := by
  rw [popStructure, Prog.gets_bind, h]
  rfl

/-- When the half that was made cannot be deleted, the second node is gone. -/
theorem split_late {p₁ p₂ : Nat} {spare : List Nat} (e : Sel4Error)
    (hspare : r.ut.freeStructures = p₁ :: p₂ :: spare) (hcs : r.cspace = CSpace.fresh)
    (hk : r.kernel = occupied 2) : ∃ e' r', utSplitAnswering (.error e) larger n r = .err e' r' ∧
      r'.ut.freeStructures = p₁ :: spare := by
  refine Prog.exists_err ?_
  obtain ⟨k, hmade, hocc⟩ : ∃ k, Kernel.untypedRetype r.kernel (.other (.untyped n)) 1 = .ok k ∧
      (k.caps 2).isSome := by
    rw [hk]
    exact ⟨_, rfl, rfl⟩
  have hretype : ∀ r' : Res, r'.kernel = r.kernel →
      untypedRetype (.other (.untyped n)) 1 r' = .ok () { r' with kernel := k } := by
    intro r' hr'
    rw [untypedRetype, kcall, Prog.zoom, Prog.ofExcept, hr', hmade]
  have hslot : allocSlot { r with ut := r.ut.setSpare (p₂ :: spare) } = _ := allocSlot_fresh hcs
  simp only [utSplitAnswering, Prog.wp_bind, Prog.wp_catchErr]
  rw [Prog.wp_of_ok (ensureNewStructures_spare (by simp [hspare])),
    Prog.wp_of_ok (popStructure_run hspare), Prog.wp_of_ok hslot,
    Prog.wp_of_ok (popStructure_run rfl), Prog.wp_of_ok (allocSlot_takenOne rfl)]
  refine (Prog.wp_of_ok (hretype _ ?_)).mpr ?_
  · rfl
  refine (Prog.wp_of_err (untypedRetype_occupied ?_)).mpr ?_
  · exact hocc
  rfl

/-- A split with two spare nodes may lose one. -/
theorem Atomic.fewSpare (h : Atomic t sizeBits) (hsize : sizeBits ∈ sizes)
    (hnil : t.freeUntypeds sizeBits = []) (hb : t.Splits sizeBits b) :
    t.freeStructures.length ≤ 1 := by
  by_contra hlt
  obtain ⟨p₁, p₂, spare, hspare⟩ : ∃ p₁ p₂ spare, t.freeStructures = p₁ :: p₂ :: spare := by
    match hlist : t.freeStructures with
    | [] => simp [hlist] at hlt
    | [p] => simp [hlist] at hlt
    | p₁ :: p₂ :: spare => exact ⟨p₁, p₂, spare, rfl⟩
  obtain ⟨larger, rest, hlist⟩ := List.exists_cons_of_ne_nil hb.free
  let res : Res := { demo.res with kernel := occupied 2, cspace := CSpace.fresh, ut := t }
  obtain ⟨e, r', hsplit, hlost⟩ : ∃ e r', utSplitAnswering (.error .illegalOperation) larger (b - 1)
      { res with ut := t.setList b rest } = .err e r' ∧ r'.ut.freeStructures = p₁ :: spare :=
    split_late .illegalOperation hspare rfl rfl
  have hrun := answering_first_split (r := res) hsize hnil hb hlist hsplit
  have hnodes := (h _ res rfl CSpace.fresh_wellFormed _ _ hrun).nodes.length_eq
  rw [hlost] at hnodes
  change (p₁ :: spare).length = t.freeStructures.length at hnodes
  simp [hspare] at hnodes

end Damaged

/-! ## Runs -/

namespace UtRun

open UTTable

/-- A failed allocation leaves everything as it was just where the table says so. -/
theorem atomic_iff {t : UTTable} {sizeBits : Nat}
    (hsizes : ∀ b, ∀ ut ∈ t.freeUntypeds b, ut.sizeBits = b ∧ b ∈ sizes) :
    Atomic t sizeBits ↔ t.Guarded sizeBits := by
  constructor
  · intro h
    by_cases hsize : sizeBits ∈ sizes
    swap
    · exact .inl hsize
    by_cases hnil : t.freeUntypeds sizeBits = []
    swap
    · exact .inr (.inl hnil)
    by_cases hex : ∃ b, t.Splits sizeBits b
    · obtain ⟨b, hb⟩ := hex
      have hspare := h.fewSpare hsize hnil hb
      exact .inr (.inr (.inr (h.starved hsize hnil hspare hsizes)))
    · exact .inr (.inr (.inl fun b hb => hex ⟨b, hb⟩))
  · intro h answer res hres _ e r' herr
    subst hres
    rw [h.unchanged (fun b ut hut => (hsizes b ut hut).1) herr]
    exact .refl _ _

/-- In every state of a run, for every size. -/
theorem atomic_run {ranges : List UntypedRange} {ops : List Call} {s : Blocks}
    (hram : Ram ranges) (run : Run (Start ranges) call Allowed ops s) (sizeBits : Nat) :
    Atomic s.table sizeBits ↔ s.table.Guarded sizeBits :=
  atomic_iff (run_parts hram run).sizes

/-- After one allocation of 2K the other half is free: another one cannot fail, but one of 1K
may do damage. -/
theorem atomic_run_two : ∃ s, Run (Start demoRanges) call Allowed [.alloc 11] s ∧
    Atomic s.table 11 ∧ ¬ Atomic s.table 10 := by
  have hrun : ∃ s, Run (Start demoRanges) call Allowed [.alloc 11] s ∧
      s.table.freeUntypeds 11 ≠ [] ∧ s.table.freeUntypeds 10 = [] ∧
      1 < s.table.freeStructures.length :=
    Run.exists_of_steps demoBlocks_start (by decide +kernel) (by decide +kernel)
  obtain ⟨s, run, hfree, hnil, hspare⟩ := hrun
  refine ⟨s, run, (atomic_run demoRanges_ram run 11).mpr (.inr (.inl hfree)), fun h => ?_⟩
  have hsplits : s.table.Splits 10 11 := ⟨by decide, by decide, hfree, fun b' hlt hlt' => by omega⟩
  obtain hs | hne | hno | hst := (atomic_run demoRanges_ram run 10).mp h
  · exact hs (by decide)
  · exact hne hnil
  · exact hno 11 hsplits
  · exact absurd hst.1 (Nat.not_le.mpr hspare)

/-- No page table is there. -/
def noTables : Res :=
  { demo.res with kernel := { demo.res.kernel with tables := fun _ _ _ => false } }

/-- One page is to be split, the other one is to give new nodes, and none is left for a page table:
the second page is lost. -/
theorem atomic_not_run : ∃ s r', Run (Start demoRanges) call Allowed [.others noTables] s ∧
    utAlloc 11 s.placed.res = .err .notEnoughMemory r' ∧
    s.table.freeMemory = 2 * pageSize4K ∧ r'.ut.freeMemory = pageSize4K ∧
    ¬ Restored 11 s.placed.res r' := by
  have hrun : ∃ s, Run (Start demoRanges) call Allowed [.others noTables] s ∧
      s.table.freeMemory = 2 * pageSize4K ∧
      ((utAlloc 11 s.placed.res).toError.any fun er =>
        decide (er.1 = .notEnoughMemory ∧ er.2.ut.freeMemory = pageSize4K)) = true :=
    Run.exists_of_steps demoBlocks_start (by decide +kernel) (by decide +kernel)
  obtain ⟨s, run, hbefore, herr⟩ := hrun
  obtain ⟨⟨e, r'⟩, hsome, hafter⟩ := (Option.any_eq_true _ _).mp herr
  obtain ⟨rfl, hlost⟩ := of_decide_eq_true hafter
  refine ⟨s, r', run, Outcome.toError_eq_some.mp hsome, hbefore, hlost, fun h => ?_⟩
  have hsame : r'.ut.freeMemory = s.table.freeMemory := h.memory
  rw [hlost, hbefore] at hsame
  exact absurd hsame (by decide)

end UtRun

end Smos.RootServer
