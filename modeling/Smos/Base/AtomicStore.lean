/-
Smos.Base.AtomicStore — a store whose operations each happen at one moment.

Clients call an operation and later return from it; in between it takes
effect once. A read that succeeds gets the cells as they are at that moment,
a write that succeeds changes its own cells, and a write that fails may have
changed some first part of them. What an implementation with many clients is
compared with.
-/
import Smos.Base.Bytes

namespace Smos.Base

/-- What a caller may ask of the store. -/
inductive StoreOp (β : Type) where
  | read (a n : Nat)
  | write (a : Nat) (bs : List β)
  | sync

/-- How far a client is with its operation. -/
inductive StoreCall (β : Type) where
  | idle
  | called (op : StoreOp β)
  | done (op : StoreOp β) (res : Nat) (bs : List β)

/-- What is seen from outside. -/
inductive StoreEvent (β : Type) where
  | called (client : Nat) (op : StoreOp β)
  | returned (client : Nat) (op : StoreOp β) (res : Nat) (bs : List β)

/-- The cells, what each caller is at, and all calls and returns so far. -/
structure AtomicStore (β : Type) where
  cells : Nat → β
  calls : Nat → StoreCall β
  log : List (StoreEvent β)

/-- A call, the moment at which it takes effect, and its return. -/
inductive StoreLabel (β : Type) where
  | call (client : Nat) (op : StoreOp β)
  | effect (client res written : Nat) (junk : List β)
  | ret (client : Nat)

namespace AtomicStore

variable {β : Type}

/-- Nobody has called yet. -/
def Start (cells : Nat → β) (s : AtomicStore β) : Prop :=
  s.cells = cells ∧ (∀ c, s.calls c = .idle) ∧ s.log = []

def next (s : AtomicStore β) : StoreLabel β → Option (AtomicStore β)
  | .call c op =>
    match s.calls c with
    | .idle =>
      some { s with calls := Function.update s.calls c (.called op),
                    log := s.log ++ [.called c op] }
    | _ => none
  | .effect c res written junk =>
    match s.calls c with
    | .called (.read a n) =>
      -- a read that fails leaves anything in the client's buffer
      some { s with calls := Function.update s.calls c
                      (.done (.read a n) res (if res = 0 then load s.cells a n else junk)) }
    | .called (.write a bs) =>
      some { s with cells := put a (if res = 0 then bs else bs.take written) s.cells,
                    calls := Function.update s.calls c (.done (.write a bs) res []) }
    | .called .sync => some { s with calls := Function.update s.calls c (.done .sync res []) }
    | _ => none
  | .ret c =>
    match s.calls c with
    | .done op res bs =>
      some { s with calls := Function.update s.calls c .idle,
                    log := s.log ++ [.returned c op res bs] }
    | _ => none

section Steps

variable {s : AtomicStore β} {c a n res : Nat} {bs : List β} {op : StoreOp β}

theorem next_call (op : StoreOp β) (h : s.calls c = .idle) :
    s.next (.call c op) =
      some ⟨s.cells, Function.update s.calls c (.called op), s.log ++ [.called c op]⟩ := by
  simp only [next, h]

theorem next_read (res written : Nat) (junk : List β) (h : s.calls c = .called (.read a n)) :
    s.next (.effect c res written junk) =
      some ⟨s.cells, Function.update s.calls c
        (.done (.read a n) res (if res = 0 then load s.cells a n else junk)), s.log⟩ := by
  simp only [next, h]

/-- A write that fails may have written a beginning. -/
theorem next_write (res written : Nat) (junk : List β) (h : s.calls c = .called (.write a bs)) :
    s.next (.effect c res written junk) =
      some ⟨put a (if res = 0 then bs else bs.take written) s.cells,
        Function.update s.calls c (.done (.write a bs) res []), s.log⟩ := by
  simp only [next, h]

theorem next_sync (res written : Nat) (junk : List β) (h : s.calls c = .called .sync) :
    s.next (.effect c res written junk) =
      some ⟨s.cells, Function.update s.calls c (.done .sync res []), s.log⟩ := by
  simp only [next, h]

theorem next_ret (h : s.calls c = .done op res bs) :
    s.next (.ret c) =
      some ⟨s.cells, Function.update s.calls c .idle, s.log ++ [.returned c op res bs]⟩ := by
  simp only [next, h]

end Steps

end AtomicStore

end Smos.Base
