/-
Smos.RootServer.Mapping — what `map_frame` does with what it takes.

`map_frame` is written here over the calls it makes, so that one and the same
loop can be run on the resources of the root server, where it is `mapFrame`,
and on a script of outcomes with a ledger. The ledger holds the untypeds and
slots that were taken and neither back an installed page table nor were given
back. `map_frame` gives nothing back: whatever a round of its loop took is
accounted for only by the page table that the round installs.

So the ledger is empty in the end if every round that gets an untyped also
gets a slot, retypes and installs, and otherwise it is not, whether an error
or a later success is returned (`mapFrame_conserves_iff`).
-/
import Smos.RootServer.Resources

namespace Smos.RootServer

open Smos.Base

/-! ## The loop, over its calls -/

/-- The calls that `map_frame` makes, each with the round of the loop it is made in. -/
structure MappingCalls (σ : Type) where
  /-- Round 0 is the attempt before the loop. -/
  frameMap : Nat → Prog Panic σ Sel4Error Unit
  alloc4kUntyped : Nat → Prog Panic σ Sel4Error UT
  allocSlot : Nat → Prog Panic σ Sel4Error Slot
  /-- A slot of the caller's is used. -/
  useSlot : Slot → Prog Panic σ Sel4Error Unit
  untypedRetype : Nat → UT → Slot → Prog Panic σ Sel4Error Unit
  ptMap : Nat → Slot → Prog Panic σ Sel4Error Unit

namespace MappingCalls

variable {σ : Type} (calls : MappingCalls σ) (freeSlots : Option (Vector Slot mappingSlots))

/-- `retype_map_pt`. -/
def retypeMapPt (i : Nat) (ut : UT) (ptSlot : Slot) : Prog Panic σ Sel4Error Unit := do
  calls.untypedRetype i ut ptSlot
  calls.ptMap i ptSlot

/-- A slot of the caller's, or a new one; and the bits of those used. -/
def nextSlot (i used : Nat) : Prog Panic σ Sel4Error (Slot × Nat) :=
  match freeSlots with
  | some freeSlotsInternal => do
    let slot ← freeSlotsInternal[i]? |> Prog.unwrap .indexOutOfBounds
    calls.useSlot slot
    pure (slot, used ||| 1 <<< i)
  | none => do
    let slot ← calls.allocSlot i
    pure (slot, used)

/-- The loop of `map_frame`, with the rounds that are left. -/
def mapFrameLoop : Nat → Nat → Nat → Except Sel4Error Unit →
    Prog Panic σ Sel4Error (Nat × Except Sel4Error Unit)
  | n + 1, i, used, .error .failedLookup => do
    let ut ← calls.alloc4kUntyped i
    let (slot, used) ← calls.nextSlot freeSlots i used
    if slot = 0 then
      Prog.fail .invalidCapability
    else
      match ← (calls.retypeMapPt i ut slot).attempt with
      | .ok () =>
        let err ← (calls.frameMap (i + 1)).attempt
        mapFrameLoop n (i + 1) used err
      | .error e => mapFrameLoop n (i + 1) used (.error e)
  | _, _, used, err => pure (used, err)

def mapFrame : Prog Panic σ Sel4Error Nat := do
  let err ← (calls.frameMap 0).attempt
  match ← calls.mapFrameLoop freeSlots mappingSlots 0 0 err with
  | (used, .ok ()) => pure used
  | (_, .error e) => Prog.fail e

end MappingCalls

/-! ## On the resources -/

/-- The calls on the resources of the root server. -/
def resourceCalls (frameCap vspace : Slot) (vaddr : Nat) (rights : CapRights) :
    MappingCalls Res where
  frameMap _ := frameMap frameCap vspace vaddr rights
  alloc4kUntyped _ := alloc4kUntyped
  allocSlot _ := allocSlot
  useSlot _ := pure ()
  untypedRetype _ _ c := untypedRetype .pt c
  ptMap _ c := kcall fun k => k.ptMap c vspace vaddr

section Resources

variable {frameCap vspace : Slot} {vaddr : Nat} {rights : CapRights}

/-- The loop returns at once, unless there is a round left and a table is missing. -/
theorem mapFrameLoop_done {σ : Type} (calls : MappingCalls σ)
    (freeSlots : Option (Vector Slot mappingSlots)) {n : Nat} {err : Except Sel4Error Unit}
    (h : n = 0 ∨ err ≠ .error .failedLookup) (i used : Nat) :
    calls.mapFrameLoop freeSlots n i used err = pure (used, err) := by
  unfold MappingCalls.mapFrameLoop
  split
  · simp at h
  · rfl

theorem mapFrameLoop_eq : ∀ (n i used : Nat) (err : Except Sel4Error Unit),
    mapFrameLoop frameCap vspace vaddr rights n err =
      (resourceCalls frameCap vspace vaddr rights).mapFrameLoop none n i used err >>=
        fun r => pure r.2
  | 0, i, used, err => by
      rw [mapFrameLoop_done _ _ (.inl rfl)]
      unfold mapFrameLoop
      rfl
  | n + 1, i, used, err => by
      by_cases herr : err = .error .failedLookup
      · subst herr
        unfold mapFrameLoop MappingCalls.mapFrameLoop
        simp only [MappingCalls.nextSlot, Prog.bind_assoc]
        refine congrArg (Prog.bind alloc4kUntyped) (funext fun ut => ?_)
        refine congrArg (Prog.bind allocSlot) (funext fun slot => ?_)
        show (if slot = 0 then Prog.fail Sel4Error.invalidCapability else _) =
          Prog.bind (if slot = 0 then Prog.fail Sel4Error.invalidCapability else _) _
        by_cases hslot : slot = 0
        · rw [if_pos hslot, if_pos hslot]
          rfl
        · rw [if_neg hslot, if_neg hslot]
          refine Eq.trans ?_ (Prog.bind_assoc _ _ _).symm
          refine congrArg (Prog.bind (retypeMapPt vspace vaddr slot).attempt) (funext fun r => ?_)
          cases r with
          | ok u =>
            refine Eq.trans ?_ (Prog.bind_assoc _ _ _).symm
            refine congrArg (Prog.bind (frameMap frameCap vspace vaddr rights).attempt)
              (funext fun err => ?_)
            exact mapFrameLoop_eq n (i + 1) used err
          | error e => exact mapFrameLoop_eq n (i + 1) used (.error e)
      · rw [mapFrameLoop_done _ _ (.inr herr)]
        unfold mapFrameLoop
        split
        · exact absurd rfl herr
        · rfl

/-- Without slots of the caller's, it is the `map_frame` of the root server. -/
theorem mapFrame_eq : mapFrame frameCap vspace vaddr rights =
    (resourceCalls frameCap vspace vaddr rights).mapFrame none >>= fun _ => pure () := by
  unfold mapFrame MappingCalls.mapFrame
  simp only [Prog.bind_assoc]
  refine congrArg (Prog.bind (frameMap frameCap vspace vaddr rights).attempt) (funext fun err => ?_)
  rw [mapFrameLoop_eq mappingSlots 0 0 err, Prog.bind_assoc]
  refine congrArg (Prog.bind _) (funext fun r => ?_)
  obtain ⟨used, ok | e⟩ := r
  · rfl
  · rfl

end Resources

/-! ## On a script of outcomes -/

/-- How the calls end, by the round of the loop. -/
structure Outcomes where
  frameMap : Nat → Except Sel4Error Unit
  untyped : Nat → Except Sel4Error UT
  slot : Nat → Except Sel4Error Slot
  retype : Nat → Except Sel4Error Unit
  ptMap : Nat → Except Sel4Error Unit

/-- What was taken and is not accounted for, and the page table objects by their slots. -/
structure Ledger where
  untypeds : List UT
  slots : List Slot
  tables : List (Slot × UT)

namespace Ledger

def empty : Ledger := ⟨[], [], []⟩

def takeUntyped (ut : UT) (l : Ledger) : Ledger := { l with untypeds := ut :: l.untypeds }

def takeSlot (slot : Slot) (l : Ledger) : Ledger := { l with slots := slot :: l.slots }

def retyped (ut : UT) (slot : Slot) (l : Ledger) : Ledger :=
  { l with tables := (slot, ut) :: l.tables }

/-- An installed page table accounts for its slot and its untyped. -/
def installed (slot : Slot) (l : Ledger) : Ledger :=
  match l.tables.lookup slot with
  | some ut => { l with untypeds := l.untypeds.erase ut, slots := l.slots.erase slot }
  | none => l

/-- Nothing is left over. -/
def Settled (l : Ledger) : Prop := l.untypeds = [] ∧ l.slots = []

end Ledger

namespace Outcomes

/-- The call ends so. -/
def ends {α : Type} : Except Sel4Error α → Prog Panic Ledger Sel4Error α
  | .ok a => pure a
  | .error e => Prog.fail e

/-- The calls of a script, with the ledger. -/
def calls (o : Outcomes) : MappingCalls Ledger where
  frameMap i := ends (o.frameMap i)
  alloc4kUntyped i := do
    let ut ← ends (o.untyped i)
    Prog.modify (Ledger.takeUntyped ut)
    pure ut
  allocSlot i := do
    let slot ← ends (o.slot i)
    Prog.modify (Ledger.takeSlot slot)
    pure slot
  useSlot slot := Prog.modify (Ledger.takeSlot slot)
  untypedRetype i ut slot := do
    ends (o.retype i)
    Prog.modify (Ledger.retyped ut slot)
  ptMap i slot := do
    ends (o.ptMap i)
    Prog.modify (Ledger.installed slot)

variable (o : Outcomes) (freeSlots : Option (Vector Slot mappingSlots))

/-- All that was taken is accounted for when `map_frame` returns. -/
def Conserves : Prop :=
  (o.calls.mapFrame freeSlots).wp (fun _ l => l.Settled) (fun _ l => l.Settled) (fun _ => False)
    .empty

/-- The slot of a round. -/
def slotAt (i : Nat) : Option Slot :=
  match freeSlots with
  | some fs => fs[i]?
  | none => (o.slot i).toOption

/-- After the untyped, all calls of the round succeed. -/
structure Served (i : Nat) : Prop where
  slot : ∃ slot, o.slotAt freeSlots i = some slot ∧ slot ≠ 0
  retype : o.retype i = .ok ()
  ptMap : o.ptMap i = .ok ()

/-- Each round that gets an untyped is served. -/
def Clean : Prop :=
  ∀ i < mappingSlots,
    (∀ j ≤ i, o.frameMap j = .error .failedLookup ∧ ∃ ut, o.untyped j = .ok ut) →
      o.Served freeSlots i

/-- Each of the `n` rounds from `i` on that gets an untyped is served. -/
def CleanFrom (n i : Nat) : Prop :=
  ∀ k < n, (∀ j ≤ k, o.frameMap (i + j) = .error .failedLookup ∧ ∃ ut, o.untyped (i + j) = .ok ut) →
    o.Served freeSlots (i + k)

variable {o freeSlots} {n i used : Nat} {l : Ledger}

/-- Without a table missing or an untyped, there is nothing to ask for. -/
theorem cleanFrom_of_not
    (h : ¬ (o.frameMap i = .error .failedLookup ∧ ∃ ut, o.untyped i = .ok ut)) :
    o.CleanFrom freeSlots n i :=
  fun _ _ hall => absurd (hall 0 (Nat.zero_le _)) h

/-- Otherwise the round has to be served, and the next ones be clean. -/
theorem cleanFrom_succ (h : o.frameMap i = .error .failedLookup ∧ ∃ ut, o.untyped i = .ok ut) :
    o.CleanFrom freeSlots (n + 1) i ↔
      o.Served freeSlots i ∧ o.CleanFrom freeSlots n (i + 1) := by
  constructor
  · intro hclean
    refine ⟨hclean 0 (Nat.succ_pos n) fun j hj => ?_, fun k hk hall => ?_⟩
    · rw [Nat.le_zero.mp hj]
      exact h
    · have hserved := hclean (k + 1) (Nat.succ_lt_succ hk) fun j hj => ?_
      · rwa [Nat.add_right_comm]
      · cases j with
        | zero => exact h
        | succ j =>
          have hnext := hall j (Nat.le_of_succ_le_succ hj)
          rwa [Nat.add_right_comm] at hnext
  · intro ⟨hserved, hclean⟩ k hk hall
    cases k with
    | zero => exact hserved
    | succ k =>
      have hnext := hclean k (Nat.lt_of_succ_lt_succ hk) fun j hj => ?_
      · rwa [Nat.add_right_comm] at hnext
      · have hj' := hall (j + 1) (Nat.succ_le_succ hj)
        rwa [Nat.add_right_comm]

/-! ## One round -/

theorem wp_ends {α : Type} {r : Except Sel4Error α} {Q : α → Ledger → Prop}
    {E : Sel4Error → Ledger → Prop} {P : Panic → Prop} :
    (ends r).wp Q E P l ↔ (∀ a, r = .ok a → Q a l) ∧ ∀ e, r = .error e → E e l := by
  cases r <;> simp [ends]

/-- The slot of the round is taken, if there is one. -/
theorem nextSlot_spec : (o.calls.nextSlot freeSlots i used).wp
    (fun r l' => o.slotAt freeSlots i = some r.1 ∧ l' = l.takeSlot r.1)
    (fun _ l' => o.slotAt freeSlots i = none ∧ l' = l) (fun _ => mappingSlots ≤ i) l := by
  unfold MappingCalls.nextSlot slotAt
  cases freeSlots with
  | some fs =>
    simp only [Prog.wp_bind, Prog.wp_unwrap, calls, Prog.wp_modify, Prog.wp_pure]
    exact ⟨fun slot hslot => ⟨hslot, trivial⟩, fun hnone => by simpa using hnone⟩
  | none =>
    simp only [Prog.wp_bind, calls, wp_ends, Prog.wp_modify, Prog.wp_pure]
    refine ⟨fun slot hslot => ⟨?_, trivial⟩, fun e he => ⟨?_, trivial⟩⟩
    · rw [hslot]
      rfl
    · rw [he]
      rfl

theorem retypeMapPt_spec {ut : UT} {slot : Slot} : (o.calls.retypeMapPt i ut slot).wp
    (fun _ l' => o.retype i = .ok () ∧ o.ptMap i = .ok () ∧
      l' = (l.retyped ut slot).installed slot)
    (fun _ l' => ¬ (o.retype i = .ok () ∧ o.ptMap i = .ok ()) ∧ l'.untypeds = l.untypeds)
    (fun _ => False) l := by
  simp only [MappingCalls.retypeMapPt, calls, Prog.wp_bind, wp_ends, Prog.wp_modify]
  refine ⟨fun _ hretype => ⟨fun _ hmap => ⟨hretype, hmap, trivial⟩, fun e he => ⟨?_, rfl⟩⟩,
    fun e he => ⟨?_, trivial⟩⟩
  · intro h
    rw [he] at h
    cases h.2
  · intro h
    rw [he] at h
    cases h.1

end Outcomes

/-- Installing the page table clears what the round took. -/
theorem Ledger.installed_taken (l : Ledger) (ut : UT) (slot : Slot) :
    (((l.takeUntyped ut).takeSlot slot).retyped ut slot).installed slot =
      { l with tables := (slot, ut) :: l.tables } := by
  unfold installed retyped takeSlot takeUntyped
  simp

namespace Outcomes

variable {o : Outcomes} {freeSlots : Option (Vector Slot mappingSlots)} {n i used : Nat}
  {l : Ledger}

/-- A round, and what is left to do after it. -/
theorem wp_round {Q : Nat × Except Sel4Error Unit → Ledger → Prop}
    {E : Sel4Error → Ledger → Prop} {P : Panic → Prop} (hi : i < mappingSlots)
    (hnone : ∀ e, o.untyped i = .error e → E e l)
    (hslot : ∀ ut e l', o.untyped i = .ok ut →
      (∀ slot, o.slotAt freeSlots i = some slot → slot = 0) →
      l'.untypeds = ut :: l.untypeds → E e l')
    (hfailed : ∀ ut slot used' e l', o.untyped i = .ok ut → o.slotAt freeSlots i = some slot →
      slot ≠ 0 → ¬ (o.retype i = .ok () ∧ o.ptMap i = .ok ()) →
      l'.untypeds = ut :: l.untypeds →
      (o.calls.mapFrameLoop freeSlots n (i + 1) used' (.error e)).wp Q E P l')
    (hserved : ∀ ut slot used', o.untyped i = .ok ut → o.slotAt freeSlots i = some slot →
      slot ≠ 0 → o.retype i = .ok () → o.ptMap i = .ok () →
      (o.calls.mapFrameLoop freeSlots n (i + 1) used' (o.frameMap (i + 1))).wp Q E P
        { l with tables := (slot, ut) :: l.tables }) :
    (o.calls.mapFrameLoop freeSlots (n + 1) i used (.error .failedLookup)).wp Q E P l := by
  rw [MappingCalls.mapFrameLoop, Prog.wp_bind]
  have halloc : (o.calls.alloc4kUntyped i).wp
      (fun ut l' => o.untyped i = .ok ut ∧ l' = l.takeUntyped ut)
      (fun e l' => o.untyped i = .error e ∧ l' = l) P l := by
    simp only [calls, Prog.wp_bind, wp_ends, Prog.wp_modify, Prog.wp_pure]
    exact ⟨fun ut hut => ⟨hut, trivial⟩, fun e he => ⟨he, trivial⟩⟩
  refine Prog.wp_mono halloc ?_ ?_ fun _ h => h
  swap
  · intro e l' hpost
    rcases hpost with ⟨he, hl'⟩
    rw [hl']
    exact hnone e he
  intro ut l₁ hpost
  rcases hpost with ⟨hut, hl₁⟩
  rw [Prog.wp_bind]
  refine Prog.wp_mono nextSlot_spec ?_ ?_ fun _ hp => absurd hi (Nat.not_lt.mpr hp)
  swap
  · intro e l' hpost
    rcases hpost with ⟨hmissing, hl'⟩
    refine hslot ut e l' hut (fun slot h => ?_) (by rw [hl', hl₁]; rfl)
    rw [hmissing] at h
    cases h
  intro x l₂ hpost
  rcases x with ⟨slot, used'⟩
  rcases hpost with ⟨hfound, hl₂⟩
  simp only [Prog.wp_ite, Prog.wp_fail, Prog.wp_bind, Prog.wp_attempt]
  rw [hl₂, hl₁]
  refine ⟨fun hzero => hslot ut _ _ hut (fun slot' h => ?_) rfl, fun hne => ?_⟩
  · rw [hfound] at h
    cases h
    exact hzero
  refine Prog.wp_mono retypeMapPt_spec ?_ ?_ fun _ => False.elim
  · intro _ l₃ hpost
    rcases hpost with ⟨hretype, hmap, hl₃⟩
    have hrest := hserved ut slot used' hut hfound hne hretype hmap
    rw [hl₃, Ledger.installed_taken]
    simp only [calls, wp_ends]
    refine ⟨fun u hu => ?_, fun e he => ?_⟩
    · rw [hu] at hrest
      exact hrest
    · rw [he] at hrest
      exact hrest
  · intro e l₃ hpost
    rcases hpost with ⟨hnot, hl₃⟩
    exact hfailed ut slot used' e l₃ hut hfound hne hnot hl₃

/-- No round accounts for more than the untyped it took. -/
theorem loop_grows : ∀ (n i used : Nat) (err : Except Sel4Error Unit) (l : Ledger),
    i + n ≤ mappingSlots → (o.calls.mapFrameLoop freeSlots n i used err).wp
      (fun _ l' => l.untypeds.length ≤ l'.untypeds.length)
      (fun _ l' => l.untypeds.length ≤ l'.untypeds.length) (fun _ => False) l
  | 0, i, used, err, l, _ => by
      rw [mapFrameLoop_done _ _ (.inl rfl)]
      exact Nat.le_refl _
  | n + 1, i, used, err, l, hn => by
      by_cases herr : err = .error .failedLookup
      swap
      · rw [mapFrameLoop_done _ _ (.inr herr)]
        exact Nat.le_refl _
      have hmore : ∀ (ut : UT) (l' : Ledger), l'.untypeds = ut :: l.untypeds →
          l.untypeds.length ≤ l'.untypeds.length := by
        intro ut l' hl'
        rw [hl']
        exact Nat.le_succ _
      rw [herr]
      refine wp_round (by omega) (fun _ _ => Nat.le_refl _) ?_ ?_ ?_
      · intro ut e l' _ _ hl'
        exact hmore ut l' hl'
      · intro ut slot used' e l' _ _ _ _ hl'
        exact Prog.wp_mono (loop_grows n (i + 1) used' (.error e) l' (by omega))
          (fun _ _ h => Nat.le_trans (hmore ut l' hl') h)
          (fun _ _ h => Nat.le_trans (hmore ut l' hl') h) fun _ h => h
      · intro ut slot used' _ _ _ _ _
        exact loop_grows n (i + 1) used' _ { l with tables := (slot, ut) :: l.tables } (by omega)

/-- What a round that is not served took is left over. -/
theorem round_unserved {ut : UT} (hn : i + (n + 1) ≤ mappingSlots) (hut : o.untyped i = .ok ut)
    (h : ¬ o.Served freeSlots i) :
    (o.calls.mapFrameLoop freeSlots (n + 1) i used (.error .failedLookup)).wp
      (fun _ l' => l.untypeds.length < l'.untypeds.length)
      (fun _ l' => l.untypeds.length < l'.untypeds.length) (fun _ => False) l := by
  have hmore : ∀ (ut : UT) (l' : Ledger), l'.untypeds = ut :: l.untypeds →
      l.untypeds.length < l'.untypeds.length := by
    intro ut l' hl'
    rw [hl']
    exact Nat.lt_succ_self _
  refine wp_round (by omega) (fun e he => ?_) ?_ ?_ ?_
  · rw [hut] at he
    cases he
  · intro ut e l' _ _ hl'
    exact hmore ut l' hl'
  · intro ut slot used' e l' _ _ _ _ hl'
    exact Prog.wp_mono (loop_grows n (i + 1) used' (.error e) l' (by omega))
      (fun _ _ h => Nat.lt_of_lt_of_le (hmore ut l' hl') h)
      (fun _ _ h => Nat.lt_of_lt_of_le (hmore ut l' hl') h) fun _ h => h
  · intro ut slot used' _ hslot hne hretype hmap
    exact absurd ⟨⟨slot, hslot, hne⟩, hretype, hmap⟩ h

/-! ## All rounds -/

theorem not_settled {l l' : Ledger} (h : l.untypeds.length < l'.untypeds.length) :
    ¬ l'.Settled := by
  intro hsettled
  rw [hsettled.1] at h
  exact absurd h (Nat.not_lt_zero _)

/-- From a ledger with nothing left over, the loop leaves nothing over just if it is clean. -/
theorem loop_settles : ∀ (n i used : Nat) (l : Ledger), i + n ≤ mappingSlots → l.Settled →
    (o.calls.mapFrameLoop freeSlots n i used (o.frameMap i)).wp
      (fun _ l' => l'.Settled ↔ o.CleanFrom freeSlots n i)
      (fun _ l' => l'.Settled ↔ o.CleanFrom freeSlots n i) (fun _ => False) l
  | 0, i, used, l, _, hl => by
      rw [mapFrameLoop_done _ _ (.inl rfl)]
      exact ⟨fun _ _ hk => absurd hk (Nat.not_lt_zero _), fun _ => hl⟩
  | n + 1, i, used, l, hn, hl => by
      by_cases herr : o.frameMap i = .error .failedLookup
      swap
      · rw [mapFrameLoop_done _ _ (.inr herr)]
        exact ⟨fun _ => cleanFrom_of_not fun h => herr h.1, fun _ => hl⟩
      by_cases hround : (∃ ut, o.untyped i = .ok ut) ∧ ¬ o.Served freeSlots i
      · obtain ⟨⟨ut, hut⟩, hnot⟩ := hround
        have hdirty : ¬ o.CleanFrom freeSlots (n + 1) i := by
          rw [cleanFrom_succ ⟨herr, ut, hut⟩]
          exact fun h => hnot h.1
        rw [herr]
        exact Prog.wp_mono (round_unserved hn hut hnot)
          (fun _ _ h => iff_of_false (not_settled h) hdirty)
          (fun _ _ h => iff_of_false (not_settled h) hdirty) fun _ h => h
      rw [herr]
      have hserved : ∀ ut, o.untyped i = .ok ut → o.Served freeSlots i := by
        intro ut hut
        by_contra hnot
        exact hround ⟨⟨ut, hut⟩, hnot⟩
      refine wp_round (by omega) (fun e he => ?_) ?_ ?_ ?_
      · refine iff_of_true hl (cleanFrom_of_not fun ⟨_, ut, hut⟩ => ?_)
        rw [he] at hut
        cases hut
      · intro ut e l' hut hnull _
        obtain ⟨slot, hslot, hne⟩ := (hserved ut hut).slot
        exact absurd (hnull slot hslot) hne
      · intro ut slot used' e l' hut _ _ hnot _
        exact absurd ⟨(hserved ut hut).retype, (hserved ut hut).ptMap⟩ hnot
      · intro ut slot used' hut _ _ _ _
        have hrest := loop_settles n (i + 1) used' { l with tables := (slot, ut) :: l.tables }
          (by omega) hl
        have hclean : o.CleanFrom freeSlots n (i + 1) ↔ o.CleanFrom freeSlots (n + 1) i := by
          rw [cleanFrom_succ ⟨herr, ut, hut⟩]
          exact ⟨fun h => ⟨hserved ut hut, h⟩, fun h => h.2⟩
        exact Prog.wp_mono hrest (fun _ _ h => h.trans hclean) (fun _ _ h => h.trans hclean)
          fun _ h => h

theorem mapFrame_settles : (o.calls.mapFrame freeSlots).wp
    (fun _ l' => l'.Settled ↔ o.CleanFrom freeSlots mappingSlots 0)
    (fun _ l' => l'.Settled ↔ o.CleanFrom freeSlots mappingSlots 0) (fun _ => False) .empty := by
  have hloop : (o.calls.mapFrameLoop freeSlots mappingSlots 0 0 (o.frameMap 0)).wp
      (fun _ l' => l'.Settled ↔ o.CleanFrom freeSlots mappingSlots 0)
      (fun _ l' => l'.Settled ↔ o.CleanFrom freeSlots mappingSlots 0) (fun _ => False) .empty :=
    loop_settles mappingSlots 0 0 .empty (Nat.le_refl _) ⟨rfl, rfl⟩
  have hall : ∀ err, o.frameMap 0 = err →
      (o.calls.mapFrameLoop freeSlots mappingSlots 0 0 err).wp (fun r l' =>
        Prog.wp (match r with
          | (used, .ok ()) => pure used
          | (_, .error e) => Prog.fail e : Prog Panic Ledger Sel4Error Nat)
          (fun _ l' => l'.Settled ↔ o.CleanFrom freeSlots mappingSlots 0)
          (fun _ l' => l'.Settled ↔ o.CleanFrom freeSlots mappingSlots 0) (fun _ => False) l')
        (fun _ l' => l'.Settled ↔ o.CleanFrom freeSlots mappingSlots 0) (fun _ => False)
        .empty := by
    intro err herr
    rw [herr] at hloop
    refine Prog.wp_mono hloop (fun r l' h => ?_) (fun _ _ h => h) fun _ h => h
    obtain ⟨used, e | u⟩ := r
    · exact h
    · exact h
  simp only [MappingCalls.mapFrame, Prog.wp_bind, Prog.wp_attempt]
  exact wp_ends.mpr ⟨fun u hu => hall _ hu, fun e he => hall _ he⟩

/-- `map_frame` conserves what it takes just if each of its rounds that gets an untyped is
served. -/
theorem mapFrame_conserves_iff :
    o.Conserves freeSlots ↔ o.Clean freeSlots := by
  have hclean : o.Clean freeSlots ↔ o.CleanFrom freeSlots mappingSlots 0 := by
    simp only [Clean, CleanFrom, Nat.zero_add]
  have hsettles : (o.calls.mapFrame freeSlots).wp
      (fun _ l => l.Settled ↔ o.CleanFrom freeSlots mappingSlots 0)
      (fun _ l => l.Settled ↔ o.CleanFrom freeSlots mappingSlots 0) (fun _ => False) .empty :=
    mapFrame_settles
  rw [hclean]
  constructor
  · intro h
    unfold Conserves at h
    cases hrun : o.calls.mapFrame freeSlots .empty with
    | ok used l =>
      have hl := Prog.wp_ok h hrun
      exact (Prog.wp_ok hsettles hrun).mp hl
    | err e l =>
      have hl := Prog.wp_err h hrun
      exact (Prog.wp_err hsettles hrun).mp hl
    | panic p => exact (Prog.wp_panic_of h hrun).elim
  · intro h
    exact Prog.wp_mono hsettles (fun _ _ hl => hl.mpr h) (fun _ _ hl => hl.mpr h) fun _ hp => hp

/-- All calls succeed, but for the first mapping, which needs two page tables. -/
def twoTables : Outcomes where
  frameMap i := if i < 2 then .error .failedLookup else .ok ()
  untyped i := .ok ⟨i, 10 + i, 12⟩
  slot i := .ok (20 + i)
  retype _ := .ok ()
  ptMap _ := .ok ()

/-- Without a slot for the table, its untyped is lost; and so are both if the slot cannot be
retyped or the table not be installed, even if a later round succeeds. -/
theorem mapFrame_not_conserves :
    ¬ ({ twoTables with slot := fun _ => .error .notEnoughMemory } : Outcomes).Conserves none ∧
    ¬ ({ twoTables with retype := fun _ => .error .deleteFirst } : Outcomes).Conserves none ∧
    ¬ ({ twoTables with ptMap := fun i => if i = 0 then .error .failedLookup else .ok () } :
      Outcomes).Conserves none := by
  refine ⟨fun h => ?_, fun h => ?_, fun h => ?_⟩
  · cases h.1
  · cases h.1
  · cases h.1

end Outcomes

end Smos.RootServer
