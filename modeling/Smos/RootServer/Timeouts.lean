/-
Smos.RootServer.Timeouts — the list of timeouts in `clock.rs`.

The nodes of one array are in two lists: those of pending timeouts by their
deadlines, and the empty ones. A timeout goes to the first empty node. Where
it becomes the first of the pending ones, its node is taken off the empty
list; where it is put behind another one, the head of the empty list is left
as it was, and the node is in both lists.

`Sys` is the array with a record of what was inserted and not yet removed;
`Kept` says what the two lists are in terms of this record.
-/
import Mathlib.Data.List.Perm.Basic
import Mathlib.Data.List.Forall2
import Mathlib.Data.List.Nodup
import Smos.Base.Chain
import Smos.Base.Prog
import Smos.Base.Run

namespace Smos.RootServer.Timeouts

open Smos.Base

/-! ## The code -/

structure TimeoutNode where
  deadline : Nat
  callback : Option Nat
  callbackData : Nat
  next : Option Nat
  prev : Option Nat
  deriving DecidableEq, Repr

/-- The statics of `clock.rs`. -/
structure Clock where
  headFull : Option Nat
  headEmpty : Option Nat
  timeouts : Nat → TimeoutNode

/-- `MAX_TIMEOUTS`. -/
def maxTimeouts : Nat := 1024

/-- Where it panics; more turns than nodes are turns without an end. -/
inductive ClockPanic where
  | headWasEmpty
  | unwrapNone
  | indexOutOfBounds
  | neverEnds
  deriving DecidableEq, Repr

abbrev TimeoutProg (α : Type) := Prog ClockPanic Clock Empty α

/-- The initial values. -/
def statics : Clock where
  headFull := none
  headEmpty := some 0
  timeouts := fun _ => ⟨0, none, 0, none, none⟩

/-- `TIMEOUTS[i]`. -/
def node (i : Nat) : TimeoutProg TimeoutNode := do
  Prog.assert .indexOutOfBounds (i < maxTimeouts)
  Prog.gets fun c => c.timeouts i

def modifyNode (i : Nat) (f : TimeoutNode → TimeoutNode) : TimeoutProg Unit := do
  Prog.assert .indexOutOfBounds (i < maxTimeouts)
  Prog.modify fun c => { c with timeouts := Function.update c.timeouts i (f (c.timeouts i)) }

def setHeadFull (head : Option Nat) : TimeoutProg Unit :=
  Prog.modify fun c => { c with headFull := head }

def setHeadEmpty (head : Option Nat) : TimeoutProg Unit :=
  Prog.modify fun c => { c with headEmpty := head }

/-- `timeouts_init`. -/
def timeoutsInit : TimeoutProg Unit := do
  Prog.forEach (fun i => modifyNode i fun n => { n with next := some (i + 1) })
    (List.range (maxTimeouts - 1))
  modifyNode (maxTimeouts - 1) fun n => { n with next := none }

/-- `timeouts_remove_min`. -/
def timeoutsRemoveMin : TimeoutProg (Nat × Nat × Nat × Nat) := do
  let rmIndex ← (← Prog.gets Clock.headFull) |> Prog.unwrap .headWasEmpty
  let n ← node rmIndex
  setHeadFull n.next
  match n.next with
  | some head => modifyNode head fun n => { n with prev := none }
  | none => pure ()
  let headEmpty ← Prog.gets Clock.headEmpty
  modifyNode rmIndex fun n => { n with next := headEmpty }
  setHeadEmpty (some rmIndex)
  let n ← node rmIndex
  let callback ← n.callback |> Prog.unwrap .unwrapNone
  pure (n.deadline, callback, n.callbackData, rmIndex)

/-- The last statements of each branch of `timeouts_insert`. -/
def fillNode (i deadline callback data : Nat) : TimeoutProg Unit :=
  modifyNode i fun n =>
    { n with deadline := deadline, callback := some callback, callbackData := data }

/-- The loop of `timeouts_insert`: the last node that is not due later. -/
def lastBefore (deadline : Nat) : Nat → Nat → TimeoutProg Nat
  | 0, _ => Prog.panic .neverEnds
  | fuel + 1, tmpIndex => do
    match (← node tmpIndex).next with
    | none => pure tmpIndex
    | some next =>
      if deadline ≥ (← node next).deadline then lastBefore deadline fuel next
      else pure tmpIndex

/-- `timeouts_insert`. -/
def timeoutsInsert (deadline callback data : Nat) : TimeoutProg (Option Nat) := do
  match ← Prog.gets Clock.headEmpty with
  | none => pure none
  | some insertIndex =>
    match ← Prog.gets Clock.headFull with
    | none =>
      -- the only one
      setHeadFull (some insertIndex)
      setHeadEmpty (← node insertIndex).next
      fillNode insertIndex deadline callback data
      modifyNode insertIndex fun n => { n with next := none, prev := none }
      pure (some insertIndex)
    | some head =>
      if deadline < (← node head).deadline then
        -- the first one
        setHeadEmpty (← node insertIndex).next
        modifyNode insertIndex fun n => { n with next := some head }
        modifyNode head fun n => { n with prev := some insertIndex }
        setHeadFull (some insertIndex)
        fillNode insertIndex deadline callback data
        pure (some insertIndex)
      else
        -- behind another one; the empty list keeps its head
        let tmpIndex ← lastBefore deadline maxTimeouts head
        let next := (← node tmpIndex).next
        modifyNode insertIndex fun n => { n with next := next, prev := some tmpIndex }
        modifyNode tmpIndex fun n => { n with next := some insertIndex }
        match (← node insertIndex).next with
        | some next => modifyNode next fun n => { n with prev := some insertIndex }
        | none => pure ()
        fillNode insertIndex deadline callback data
        pure (some insertIndex)

/-! ## The system and what is kept -/

/-- A timeout that was inserted, with the number of insertions before it. -/
structure Timeout where
  deadline : Nat
  callback : Nat
  data : Nat
  number : Nat
  deriving DecidableEq, Repr

/-- It is due before the other, or is due with it and was inserted before it. -/
def Timeout.Before (x y : Timeout) : Prop :=
  x.deadline < y.deadline ∨ x.deadline = y.deadline ∧ x.number < y.number

instance (x y : Timeout) : Decidable (x.Before y) := inferInstanceAs (Decidable (_ ∨ _ ∧ _))

/-- The statics, the timeouts inserted and not removed, and the number of insertions. -/
structure Sys where
  clock : Clock
  pending : List Timeout
  count : Nat

inductive Op where
  | insert (deadline callback data : Nat)
  | removeMin
  deriving DecidableEq, Repr

inductive Answer where
  | inserted (index : Option Nat)
  | removed (deadline callback data index : Nat)
  deriving DecidableEq, Repr

/-- The pending timeout that is before all others. -/
def earliest : List Timeout → Option Timeout
  | [] => none
  | x :: xs =>
    match earliest xs with
    | none => some x
    | some y => if x.Before y then some x else some y

/-- An operation, its answer and its record; none where it panics. -/
def step (s : Sys) : Op → Option (Answer × Sys)
  | .insert deadline callback data =>
    match timeoutsInsert deadline callback data s.clock with
    | .ok none clock => some (.inserted none, { s with clock := clock })
    | .ok (some index) clock => some (.inserted (some index),
        ⟨clock, s.pending ++ [⟨deadline, callback, data, s.count⟩], s.count + 1⟩)
    | _ => none
  | .removeMin =>
    match timeoutsRemoveMin s.clock with
    | .ok (deadline, callback, data, index) clock => some (.removed deadline callback data index,
        { s with clock := clock, pending := (earliest s.pending).elim s.pending s.pending.erase })
    | _ => none

def next (s : Sys) (op : Op) : Option Sys := (step s op).map Prod.snd

/-- After `timeouts_init`. -/
def Started (s : Sys) : Prop :=
  timeoutsInit statics = .ok () s.clock ∧ s.pending = [] ∧ s.count = 0

/-- The node of a pending timeout. -/
def HoldsTimeout (c : Clock) (i : Nat) (x : Timeout) : Prop :=
  (c.timeouts i).deadline = x.deadline ∧ (c.timeouts i).callback = some x.callback ∧
    (c.timeouts i).callbackData = x.data

/-- The two lists have every node once, and the active one spells out the pending timeouts, the
earliest first and equal ones in their order. -/
structure Lists (s : Sys) (active empty : List Nat) (sorted : List Timeout) : Prop where
  chainFull : Chain (fun i => (s.clock.timeouts i).next) s.clock.headFull active
  chainEmpty : Chain (fun i => (s.clock.timeouts i).next) s.clock.headEmpty empty
  once : (active ++ empty).Perm (List.range maxTimeouts)
  holds : List.Forall₂ (HoldsTimeout s.clock) active sorted
  inOrder : sorted.Pairwise Timeout.Before
  record : sorted.Perm s.pending
  numbers : ∀ x ∈ s.pending, x.number < s.count

/-- An operation is answered as it should be. -/
def AnsweredRight (s : Sys) : Op → Prop
  | .insert deadline callback data => ∃ r s', step s (.insert deadline callback data) =
      some (.inserted r, s') ∧ (r.isSome = true ↔ s.clock.headEmpty ≠ none) ∧
      (r = none → s' = s)
  | .removeMin =>
    if s.pending = [] then step s .removeMin = none
    else ∃ x ∈ s.pending, ∃ index s', step s .removeMin =
      some (.removed x.deadline x.callback x.data index, s') ∧
      (∀ y ∈ s.pending, y ≠ x → x.Before y) ∧ s'.pending = s.pending.erase x

/-- What the lists are for. -/
def Kept (s : Sys) : Prop := ∃ active empty sorted, Lists s active empty sorted

/-- The new timeout does not go behind another one. -/
def GoesFirst (s : Sys) : Op → Prop
  | .insert deadline _ _ => s.clock.headEmpty = none ∨
      ∀ head, s.clock.headFull = some head → deadline < (s.clock.timeouts head).deadline
  | .removeMin => True

instance (s : Sys) (op : Op) : Decidable (GoesFirst s op) :=
  match op with
  | .insert deadline _ _ =>
    match h : s.clock.headFull with
    | none => isTrue (.inr fun head hhead => by rw [h] at hhead; cases hhead)
    | some head => decidable_of_iff (s.clock.headEmpty = none ∨
        deadline < (s.clock.timeouts head).deadline) (by simp [GoesFirst, h])
  | .removeMin => isTrue trivial

section Steps

variable {s s' : Sys} {c : Clock} {active empty : List Nat} {sorted : List Timeout}
  {deadline callback data i : Nat} {Q : Unit → Clock → Prop} {Q' : TimeoutNode → Clock → Prop}
  {E : Empty → Clock → Prop} {P : ClockPanic → Prop}

theorem wp_node (hi : i < maxTimeouts) :
    (node i).wp Q' E P c ↔ Q' (c.timeouts i) c := by
  simp [node, hi]

theorem wp_modifyNode (hi : i < maxTimeouts) (f : TimeoutNode → TimeoutNode) :
    (modifyNode i f).wp Q E P c ↔ Q () { c with
      timeouts := Function.update c.timeouts i (f (c.timeouts i)) } := by
  simp [modifyNode, hi]

/-! ## The start -/

/-- The first nodes are linked, the heads are as they were. -/
def Linked (n : Nat) (c : Clock) : Prop :=
  c.headFull = none ∧ c.headEmpty = some 0 ∧ ∀ j < n, (c.timeouts j).next = some (j + 1)

theorem link_loop {n : Nat} (hn : n ≤ maxTimeouts) : ∃ c,
    (Prog.forEach (fun i => modifyNode i fun n => { n with next := some (i + 1) })
      (List.range n) : TimeoutProg Unit) statics = .ok () c ∧ Linked n c := by
  have hloop : (Prog.forEach (fun i => modifyNode i fun n =>
      { n with next := some (i + 1) }) (List.range n) : TimeoutProg Unit).wp (fun _ c => Linked n c)
      (fun _ _ => False) (fun _ => False) statics := by
    have hstart : Linked 0 statics := ⟨rfl, rfl, fun j hj => absurd hj (Nat.not_lt_zero j)⟩
    refine Prog.wp_forEach_range (I := Linked) hstart fun i hi c hc => ?_
    rw [wp_modifyNode (by omega)]
    refine ⟨hc.1, hc.2.1, fun j hj => ?_⟩
    by_cases heq : j = i
    · subst heq
      simp
    · simp [heq, hc.2.2 j (by omega)]
  obtain ⟨_, c, hok, hc⟩ := Prog.exists_ok hloop
  exact ⟨c, hok, hc⟩

theorem timeoutsInit_ok : ∃ c, timeoutsInit statics = .ok () c ∧ Linked (maxTimeouts - 1) c ∧
    (c.timeouts (maxTimeouts - 1)).next = none := by
  obtain ⟨c, hok, hfull, hempty, hlinks⟩ := link_loop (Nat.sub_le maxTimeouts 1)
  unfold timeoutsInit
  generalize hn : maxTimeouts - 1 = n at hok hlinks ⊢
  have hlt : n < maxTimeouts := by
    rw [← hn]
    decide
  have hlast : modifyNode n (fun n => { n with next := none }) c = .ok () { c with
      timeouts := Function.update c.timeouts n { c.timeouts n with next := none } } :=
    Prog.eq_ok_of_wp ((wp_modifyNode hlt _).mpr ⟨rfl, rfl⟩)
  refine ⟨_, (Prog.bind_of_ok hok).trans hlast, ⟨hfull, hempty, fun j hj => ?_⟩, by simp⟩
  have hne : j ≠ n := Nat.ne_of_lt hj
  simp [hne, hlinks j hj]

theorem Linked.chain {n : Nat} (h : Linked n c) (hlast : (c.timeouts n).next = none) :
    Chain (fun i => (c.timeouts i).next) c.headEmpty (List.range (n + 1)) := by
  have hchain : Chain (fun i => (c.timeouts i).next) (if 0 < n + 1 then some 0 else none)
      (List.range' 0 (n + 1)) :=
    Chain.range' (n + 1) 0 (fun i _ hi => h.2.2 i (by omega)) fun _ => by
      rw [Nat.zero_add]
      exact hlast
  rw [if_pos (Nat.succ_pos n), ← List.range_eq_range'] at hchain
  rw [h.2.1]
  exact hchain

theorem lists_started (h : Started s) : Lists s [] (List.range maxTimeouts) [] := by
  obtain ⟨hok, hpending, hcount⟩ := h
  obtain ⟨c, hok', hlinked, hlast⟩ := timeoutsInit_ok
  obtain rfl : s.clock = c := (Outcome.ok.inj (hok.symm.trans hok')).2
  have hsize : maxTimeouts - 1 + 1 = maxTimeouts := rfl
  have hchain := hlinked.chain hlast
  rw [hsize] at hchain
  refine ⟨?_, hchain, ?_, .nil, .nil, ?_, ?_⟩
  · rw [hlinked.1]
    exact .nil
  · rw [List.nil_append]
  · rw [hpending]
  · rw [hpending]
    exact fun x hx => absurd hx List.not_mem_nil

/-! ## What the functions do -/

/-- The node has the same timeout as before. -/
def SameTimeout (n n' : TimeoutNode) : Prop :=
  n'.deadline = n.deadline ∧ n'.callback = n.callback ∧ n'.callbackData = n.callbackData

/-- Node `i` went from the front of the empty list to the front of the active one. -/
structure Pushed (c : Clock) (i deadline callback data : Nat) (c' : Clock) : Prop where
  headFull : c'.headFull = some i
  headEmpty : c'.headEmpty = (c.timeouts i).next
  next : (c'.timeouts i).next = c.headFull
  filled : (c'.timeouts i).deadline = deadline ∧ (c'.timeouts i).callback = some callback ∧
    (c'.timeouts i).callbackData = data
  others : ∀ j, j ≠ i → (c'.timeouts j).next = (c.timeouts j).next ∧
    SameTimeout (c.timeouts j) (c'.timeouts j)

theorem timeoutsInsert_pushes (hempty : c.headEmpty = some i) (hi : i < maxTimeouts)
    (hfirst : ∀ head, c.headFull = some head → head < maxTimeouts ∧ head ≠ i ∧
      deadline < (c.timeouts head).deadline) :
    ∃ c', timeoutsInsert deadline callback data c = .ok (some i) c' ∧
      Pushed c i deadline callback data c' := by
  cases hfull : c.headFull with
  | none =>
    have hspec : (timeoutsInsert deadline callback data).wp
        (fun r c' => r = some i ∧ Pushed c i deadline callback data c') (fun _ _ => False)
        (fun _ => False) c := by
      simp only [timeoutsInsert, fillNode, setHeadFull, setHeadEmpty, Prog.wp_bind, Prog.wp_gets,
        hempty, hfull, wp_node hi, wp_modifyNode hi, Prog.wp_modify, Prog.wp_pure]
      refine ⟨trivial, rfl, rfl, ?_, ?_, fun j hj => ?_⟩
      · simp [hfull]
      · simp
      · simp [hj, SameTimeout]
    obtain ⟨_, c', hok, rfl, hc'⟩ := Prog.exists_ok hspec
    exact ⟨c', hok, hc'⟩
  | some head =>
    obtain ⟨hhead, hne, hlt⟩ := hfirst head hfull
    have hspec : (timeoutsInsert deadline callback data).wp
        (fun r c' => r = some i ∧ Pushed c i deadline callback data c') (fun _ _ => False)
        (fun _ => False) c := by
      simp only [timeoutsInsert, fillNode, setHeadFull, setHeadEmpty, Prog.wp_bind, Prog.wp_gets,
        hempty, hfull, wp_node hi, wp_node hhead, hlt, if_true, wp_modifyNode hi,
        wp_modifyNode hhead, Prog.wp_modify, Prog.wp_pure]
      refine ⟨trivial, rfl, rfl, ?_, ?_, fun j hj => ?_⟩
      · simp [hfull, hne, hne.symm]
      · simp
      · by_cases hjh : j = head
        · subst hjh
          simp [hj, SameTimeout]
        · simp [hj, hjh, SameTimeout]
    obtain ⟨_, c', hok, rfl, hc'⟩ := Prog.exists_ok hspec
    exact ⟨c', hok, hc'⟩

/-- Node `i` went back to the front of the empty list. -/
structure Popped (c : Clock) (i : Nat) (c' : Clock) : Prop where
  headFull : c'.headFull = (c.timeouts i).next
  headEmpty : c'.headEmpty = some i
  next : (c'.timeouts i).next = c.headEmpty
  others : ∀ j, j ≠ i → (c'.timeouts j).next = (c.timeouts j).next ∧
    SameTimeout (c.timeouts j) (c'.timeouts j)

theorem timeoutsRemoveMin_pops (hfull : c.headFull = some i) (hi : i < maxTimeouts)
    (hnext : ∀ head, (c.timeouts i).next = some head → head < maxTimeouts ∧ head ≠ i)
    (hcallback : (c.timeouts i).callback = some callback) :
    ∃ c', timeoutsRemoveMin c = .ok ((c.timeouts i).deadline, callback,
      (c.timeouts i).callbackData, i) c' ∧ Popped c i c' := by
  have hspec : timeoutsRemoveMin.wp (fun r c' => r = ((c.timeouts i).deadline, callback,
      (c.timeouts i).callbackData, i) ∧ Popped c i c') (fun _ _ => False) (fun _ => False) c := by
    simp only [timeoutsRemoveMin, setHeadFull, setHeadEmpty, Prog.wp_bind, Prog.wp_gets, hfull,
      Prog.wp_unwrap, Option.some.injEq, forall_eq', reduceCtorEq, false_implies, and_true,
      wp_node hi, Prog.wp_modify]
    cases hn : (c.timeouts i).next with
    | none =>
      simp only [Prog.wp_bind, Prog.wp_gets, Prog.wp_modify, Prog.wp_unwrap, Prog.wp_pure,
        wp_node hi, wp_modifyNode hi, Function.update_self, hcallback, Option.some.injEq,
        forall_eq', reduceCtorEq, false_implies, and_true, true_and]
      refine ⟨hn.symm, rfl, ?_, fun j hj => ?_⟩
      · simp
      · simp [hj, SameTimeout]
    | some head =>
      obtain ⟨hhead, hne⟩ := hnext head hn
      simp only [Prog.wp_bind, Prog.wp_gets, Prog.wp_modify, Prog.wp_unwrap, Prog.wp_pure,
        wp_node hi, wp_modifyNode hi, wp_modifyNode hhead, Function.update_self,
        Function.update_of_ne hne.symm, hcallback, Option.some.injEq, forall_eq', reduceCtorEq,
        false_implies, and_true, true_and]
      refine ⟨hn.symm, rfl, ?_, fun j hj => ?_⟩
      · simp
      · by_cases hjh : j = head
        · subst hjh
          simp [hj, SameTimeout]
        · simp [hj, hjh, SameTimeout]
  obtain ⟨_, c', hok, rfl, hc'⟩ := Prog.exists_ok hspec
  exact ⟨c', hok, hc'⟩

/-! ## What they keep -/

theorem Timeout.Before.asymm {x y : Timeout} (h : x.Before y) : ¬ y.Before x := by
  unfold Timeout.Before at *
  omega

theorem earliest_mem {l : List Timeout} {x : Timeout} (h : earliest l = some x) : x ∈ l := by
  induction l with
  | nil => cases h
  | cons a as ih =>
    rw [earliest] at h
    cases hrest : earliest as with
    | none =>
      rw [hrest] at h
      obtain rfl := Option.some.inj h
      exact List.mem_cons_self
    | some y =>
      rw [hrest] at h
      dsimp only at h
      split at h
      · obtain rfl := Option.some.inj h
        exact List.mem_cons_self
      · obtain rfl := Option.some.inj h
        exact List.mem_cons_of_mem _ (ih hrest)

/-- What is before all others is found. -/
theorem earliest_eq {l : List Timeout} {x : Timeout} (hx : x ∈ l)
    (hleast : ∀ y ∈ l, y ≠ x → x.Before y) : earliest l = some x := by
  induction l with
  | nil => cases hx
  | cons a as ih =>
    rw [earliest]
    by_cases hax : a = x
    · subst hax
      cases hrest : earliest as with
      | none => rfl
      | some y =>
        by_cases hya : y = a
        · subst hya
          simp
        · have hbefore := hleast y (List.mem_cons_of_mem _ (earliest_mem hrest)) hya
          simp [hbefore]
    · have hmem := (List.mem_cons.mp hx).resolve_left (Ne.symm hax)
      rw [ih hmem fun y hy => hleast y (List.mem_cons_of_mem _ hy)]
      have hbefore := hleast a List.mem_cons_self hax
      simp [hbefore.asymm]

theorem holds_congr {c' : Clock} (h : List.Forall₂ (HoldsTimeout c) active sorted)
    (hsame : ∀ j ∈ active, SameTimeout (c.timeouts j) (c'.timeouts j)) :
    List.Forall₂ (HoldsTimeout c') active sorted := by
  induction h with
  | nil => exact .nil
  | cons hx _ ih =>
    obtain ⟨hd, hc, hdata⟩ := hx
    obtain ⟨hd', hc', hdata'⟩ := hsame _ List.mem_cons_self
    refine .cons ⟨hd'.trans hd, hc'.trans hc, hdata'.trans hdata⟩ (ih fun j hj => ?_)
    exact hsame j (List.mem_cons_of_mem _ hj)

namespace Lists

theorem nodup (h : Lists s active empty sorted) : (active ++ empty).Nodup :=
  h.once.nodup_iff.mpr List.nodup_range

theorem lt (h : Lists s active empty sorted) (hi : i ∈ active ++ empty) : i < maxTimeouts :=
  List.mem_range.mp (h.once.mem_iff.mp hi)

/-- The first timeout is before the others. -/
theorem least {x : Timeout} (h : Lists s active empty (x :: sorted)) :
    x ∈ s.pending ∧ ∀ y ∈ s.pending, y ≠ x → x.Before y := by
  refine ⟨h.record.mem_iff.mp List.mem_cons_self, fun y hy hne => ?_⟩
  have hmem := (List.mem_cons.mp (h.record.mem_iff.mpr hy)).resolve_left hne
  exact (List.pairwise_cons.mp h.inOrder).1 y hmem

theorem push {c' : Clock} (h : Lists s active (i :: empty) sorted)
    (hp : Pushed s.clock i deadline callback data c') (hlt : ∀ x ∈ sorted, deadline < x.deadline) :
    Lists ⟨c', s.pending ++ [⟨deadline, callback, data, s.count⟩], s.count + 1⟩ (i :: active) empty
      (⟨deadline, callback, data, s.count⟩ :: sorted) := by
  have hnodup := List.nodup_middle.mp h.nodup
  obtain ⟨hnot, -⟩ := List.nodup_cons.mp hnodup
  have hactive : ∀ j ∈ active, j ≠ i := fun j hj heq =>
    hnot (heq ▸ List.mem_append_left _ hj)
  have hempty : ∀ j ∈ empty, j ≠ i := fun j hj heq =>
    hnot (heq ▸ List.mem_append_right _ hj)
  refine ⟨?_, ?_, ?_, ?_, ?_, ?_, ?_⟩
  · rw [hp.headFull]
    exact h.chainFull.push hp.next fun j hj => (hp.others j (hactive j hj)).1
  · rw [hp.headEmpty]
    exact h.chainEmpty.pop.congr fun j hj => (hp.others j (hempty j hj)).1
  · exact List.perm_middle.symm.trans h.once
  · exact .cons hp.filled (holds_congr h.holds fun j hj => (hp.others j (hactive j hj)).2)
  · exact List.pairwise_cons.mpr ⟨fun x hx => .inl (hlt x hx), h.inOrder⟩
  · exact (List.Perm.cons _ h.record).trans (List.perm_append_singleton _ _).symm
  · intro x hx
    rcases List.mem_append.mp hx with hx | hx
    · exact Nat.lt_succ_of_lt (h.numbers x hx)
    · rw [List.mem_singleton.mp hx]
      exact Nat.lt_succ_self _

theorem pop {c' : Clock} {x : Timeout} (h : Lists s (i :: active) empty (x :: sorted))
    (hp : Popped s.clock i c') :
    Lists { s with clock := c', pending := s.pending.erase x } active (i :: empty) sorted := by
  obtain ⟨hnot, -⟩ := List.nodup_cons.mp (List.cons_append .. ▸ h.nodup)
  have hactive : ∀ j ∈ active, j ≠ i := fun j hj heq =>
    hnot (heq ▸ List.mem_append_left _ hj)
  have hempty : ∀ j ∈ empty, j ≠ i := fun j hj heq =>
    hnot (heq ▸ List.mem_append_right _ hj)
  refine ⟨?_, ?_, ?_, ?_, ?_, ?_, ?_⟩
  · rw [hp.headFull]
    exact h.chainFull.pop.congr fun j hj => (hp.others j (hactive j hj)).1
  · rw [hp.headEmpty]
    exact h.chainEmpty.push hp.next fun j hj => (hp.others j (hempty j hj)).1
  · exact List.perm_middle.trans h.once
  · cases h.holds with
    | cons _ hrest => exact holds_congr hrest fun j hj => (hp.others j (hactive j hj)).2
  · exact (List.pairwise_cons.mp h.inOrder).2
  · have herase := h.record.erase x
    rwa [List.erase_cons_head] at herase
  · exact fun y hy => h.numbers y (List.mem_of_mem_erase hy)

/-- An insertion that does not go behind another timeout. -/
theorem insert (h : Lists s active empty sorted)
    (hfirst : GoesFirst s (.insert deadline callback data)) :
    AnsweredRight s (.insert deadline callback data) ∧
      ∀ s', next s (.insert deadline callback data) = some s' → Kept s' := by
  cases empty with
  | nil =>
    have hnone : s.clock.headEmpty = none := h.chainEmpty.head_eq
    have hstep : step s (.insert deadline callback data) = some (.inserted none, s) := by
      have hok : timeoutsInsert deadline callback data s.clock = .ok none s.clock := by
        unfold timeoutsInsert
        rw [Prog.gets_bind, hnone]
        rfl
      rw [step, hok]
    refine ⟨⟨none, s, hstep, by simp [hnone], fun _ => rfl⟩, fun s' hs' => ?_⟩
    unfold next at hs'
    rw [hstep] at hs'
    obtain rfl := Option.some.inj hs'
    exact ⟨active, [], sorted, h⟩
  | cons i empty =>
    have hi : s.clock.headEmpty = some i := h.chainEmpty.head_eq
    have hdeadline : ∀ head, s.clock.headFull = some head →
        deadline < (s.clock.timeouts head).deadline :=
      hfirst.resolve_left (by rw [hi]; exact Option.some_ne_none i)
    have hlt : ∀ x ∈ sorted, deadline < x.deadline := by
      intro x hx
      cases h.holds with
      | nil => cases hx
      | cons hfst _ =>
        have hle := hdeadline _ h.chainFull.head_eq
        rw [hfst.1] at hle
        rcases List.mem_cons.mp hx with rfl | hx
        · exact hle
        · have hbefore := (List.pairwise_cons.mp h.inOrder).1 x hx
          unfold Timeout.Before at hbefore
          omega
    have hhead : ∀ head, s.clock.headFull = some head → head < maxTimeouts ∧ head ≠ i ∧
        deadline < (s.clock.timeouts head).deadline := by
      intro head hhead
      have hmem : head ∈ active := by
        have heq := h.chainFull.head_eq.symm.trans hhead
        exact List.mem_of_head? heq
      refine ⟨h.lt (List.mem_append_left _ hmem), fun heq => ?_, hdeadline head hhead⟩
      have hnot := (List.nodup_cons.mp (List.nodup_middle.mp h.nodup)).1
      exact hnot (heq ▸ List.mem_append_left _ hmem)
    obtain ⟨c', hok, hp⟩ : ∃ c', timeoutsInsert deadline callback data s.clock =
        .ok (some i) c' ∧ Pushed s.clock i deadline callback data c' :=
      timeoutsInsert_pushes hi (h.lt (List.mem_append_right _ List.mem_cons_self)) hhead
    have hstep : step s (.insert deadline callback data) = some (.inserted (some i),
        ⟨c', s.pending ++ [⟨deadline, callback, data, s.count⟩], s.count + 1⟩) := by
      rw [step, hok]
    refine ⟨⟨some i, _, hstep, by simp [hi], fun hc => by cases hc⟩, fun s' hs' => ?_⟩
    unfold next at hs'
    rw [hstep] at hs'
    obtain rfl := Option.some.inj hs'
    exact ⟨_, _, _, h.push hp hlt⟩

theorem removeMin (h : Lists s active empty sorted) : AnsweredRight s .removeMin ∧
    ∀ s', next s .removeMin = some s' → Kept s' := by
  unfold AnsweredRight
  cases active with
  | nil =>
    have hsorted : sorted = [] := List.length_eq_zero_iff.mp h.holds.length_eq.symm
    have hpending : s.pending = [] := List.nil_perm.mp (hsorted ▸ h.record)
    have hnone : s.clock.headFull = none := h.chainFull.head_eq
    have hstep : step s .removeMin = none := by
      have hpanic : timeoutsRemoveMin s.clock = .panic .headWasEmpty := by
        unfold timeoutsRemoveMin
        rw [Prog.gets_bind, hnone]
        rfl
      rw [step, hpanic]
    rw [if_pos hpending]
    refine ⟨hstep, fun s' hs' => ?_⟩
    unfold next at hs'
    rw [hstep] at hs'
    cases hs'
  | cons i active =>
    obtain ⟨x, xs, hholds, -, rfl⟩ := List.forall₂_cons_left_iff.mp h.holds
    obtain ⟨hmem, hleast⟩ := h.least
    have hpending : s.pending ≠ [] := List.ne_nil_of_mem hmem
    have hearliest := earliest_eq hmem hleast
    have hnot := (List.nodup_cons.mp (List.cons_append .. ▸ h.nodup)).1
    have hnext : ∀ head, (s.clock.timeouts i).next = some head →
        head < maxTimeouts ∧ head ≠ i := by
      intro head hhead
      have hmem : head ∈ active := List.mem_of_head? (h.chainFull.pop.head_eq.symm.trans hhead)
      refine ⟨h.lt (List.mem_append_left _ (List.mem_cons_of_mem _ hmem)), fun heq => ?_⟩
      exact hnot (heq ▸ List.mem_append_left _ hmem)
    obtain ⟨c', hok, hp⟩ := timeoutsRemoveMin_pops h.chainFull.head_eq
      (h.lt (List.mem_append_left _ List.mem_cons_self)) hnext hholds.2.1
    rw [hholds.1, hholds.2.2] at hok
    have hstep : step s .removeMin = some (.removed x.deadline x.callback x.data i,
        { s with clock := c', pending := s.pending.erase x }) := by
      rw [step, hok, hearliest]
      rfl
    rw [if_neg hpending]
    refine ⟨⟨x, hmem, i, _, hstep, hleast, rfl⟩, fun s' hs' => ?_⟩
    unfold next at hs'
    rw [hstep] at hs'
    obtain rfl := Option.some.inj hs'
    exact ⟨_, _, _, h.pop hp⟩

end Lists

/-- As long as no timeout goes behind another one, the lists are kept, and every such operation is
answered as it should be. -/
theorem timeouts_run {ops : List Op} (h : Run Started next GoesFirst ops s) :
    Kept s ∧ ∀ op, GoesFirst s op → AnsweredRight s op := by
  have hkept : Kept s := by
    refine Run.invariant (fun s hs => ⟨_, _, _, lists_started hs⟩) (fun s op s' hs hop hn => ?_) h
    obtain ⟨active, empty, sorted, hlists⟩ := hs
    cases op with
    | insert deadline callback data => exact (hlists.insert hop).2 s' hn
    | removeMin => exact hlists.removeMin.2 s' hn
  refine ⟨hkept, fun op hop => ?_⟩
  obtain ⟨active, empty, sorted, hlists⟩ := hkept
  cases op with
  | insert deadline callback data => exact (hlists.insert hop).1
  | removeMin => exact hlists.removeMin.1

end Steps

/-! ## Runs -/

/-- What a run reaches is computed. -/
theorem reaches {guard : Sys → Op → Prop} [∀ s op, Decidable (guard s op)] {ops : List Op}
    {P : Sys → Prop} [DecidablePred P] (h : ((timeoutsInit statics).toOption.any fun r =>
      decide (Run.Guarded next guard ⟨r.2, [], 0⟩ ops) &&
        (Run.steps next ⟨r.2, [], 0⟩ ops).any fun s => decide (P s)) = true) :
    ∃ s, Run Started next guard ops s ∧ P s := by
  obtain ⟨⟨_, c⟩, hc, h⟩ := (Option.any_eq_true _ _).mp h
  obtain ⟨hg, hs⟩ := Bool.and_eq_true_iff.mp h
  exact Run.exists_of_steps ⟨Outcome.toOption_eq_some.mp hc, rfl, rfl⟩ (of_decide_eq_true hg) hs

/-- Three timeouts, each before the one inserted last, and one is removed. -/
theorem timeouts_run_demo : ∃ s, Run Started next GoesFirst
    [.insert 30 1 2, .insert 20 3 4, .insert 10 5 6, .removeMin] s ∧ s.pending ≠ [] ∧ Kept s ∧
      ∀ op, GoesFirst s op → AnsweredRight s op := by
  obtain ⟨s, run, hpending⟩ : ∃ s, Run Started next GoesFirst
      [.insert 30 1 2, .insert 20 3 4, .insert 10 5 6, .removeMin] s ∧ s.pending ≠ [] :=
    reaches (by decide +kernel)
  exact ⟨s, run, hpending, timeouts_run run⟩

/-- The second of two timeouts is due after the first: its node is pending and empty. -/
theorem timeouts_not_run : ∃ s,
    Run Started next (fun _ _ => True) [.insert 10 1 2, .insert 20 3 4] s ∧ ¬ Kept s := by
  obtain ⟨s, run, hfull, hnext, hempty⟩ : ∃ s, Run Started next (fun _ _ => True)
      [.insert 10 1 2, .insert 20 3 4] s ∧ s.clock.headFull = some 0 ∧
        (s.clock.timeouts 0).next = some 1 ∧ s.clock.headEmpty = some 1 :=
    reaches (by decide +kernel)
  refine ⟨s, run, fun ⟨active, empty, sorted, h⟩ => ?_⟩
  have hchain := h.chainFull
  have hchain' := h.chainEmpty
  have hnodup := h.nodup
  rw [hempty] at hchain'
  rw [hfull] at hchain
  cases hchain with
  | cons hrest =>
    rw [hnext] at hrest
    cases hrest with
    | cons _ =>
      cases hchain' with
      | cons _ => simp at hnodup

end Smos.RootServer.Timeouts
