/-
Smos.Base.Radix — radix tables: trees of fixed fan-out whose leaves hold
values and whose paths are digit strings.

A table of fan-out `w` is an array of entries; an entry is empty, a leaf
or a further table. `lookup` follows a path and answers the first leaf it
meets; `insert` creates the tables missing on the way and answers
`occupied` when a leaf is already in its way. Nothing in the type keeps a
leaf at the depth where the paths end, so the raw `insert` has a third
answer, `tableAtEnd`, for a path that runs out above a leaf.

`Table w n α` is a raw table all of whose leaves sit at depth `n`. On it
a path of length `n` behaves as a key: `insert` succeeds exactly on the
keys that `lookup` does not know, changes that key only, and adds exactly
one value to `values`, the walk in index order.
-/
import Mathlib.Data.List.FinRange
import Mathlib.Data.List.Perm.Basic
import Mathlib.Data.Fin.Basic
import Mathlib.Logic.Function.Basic
import Mathlib.Tactic.Common
import Smos.Base.Prog

namespace Smos.Base

/-- One entry of a table of fan-out `w`. -/
inductive Node (w : Nat) (α : Type) where
  | empty
  | leaf (a : α)
  | table (t : Fin w → Node w α)

/-- What an insertion answers. -/
inductive Inserted (β : Type) where
  | done (b : β)
  /-- A leaf is already there. -/
  | occupied
  /-- The path ended at a table. -/
  | tableAtEnd

/-- One element more in one of the lists that are joined. -/
theorem flatMap_perm_cons {ι β : Type} [DecidableEq ι] {xs : List ι} (hxs : xs.Nodup) {d : ι}
    (hd : d ∈ xs) {f g : ι → List β} {a : β} (hgd : (g d).Perm (a :: f d))
    (hother : ∀ i, i ≠ d → g i = f i) : (xs.flatMap g).Perm (a :: xs.flatMap f) := by
  induction xs with
  | nil => cases hd
  | cons i is ih =>
    obtain ⟨hi, his⟩ := List.nodup_cons.mp hxs
    by_cases hid : i = d
    · subst hid
      have hrest : is.flatMap g = is.flatMap f :=
        List.flatMap_congr fun j hj => hother j fun h => hi (h ▸ hj)
      simp only [List.flatMap_cons, hrest]
      exact hgd.append_right _
    · have hd' : d ∈ is := (List.mem_cons.mp hd).resolve_left (Ne.symm hid)
      simp only [List.flatMap_cons, hother i hid]
      exact ((ih his hd').append_left _).trans List.perm_middle

namespace Node

variable {w n : Nat} {α : Type}

/-- Follow the path to the first leaf. -/
def lookup : Node w α → List (Fin w) → Option α
  | .empty, _ => none
  | .leaf a, _ => some a
  | .table _, [] => none
  | .table t, d :: ds => (t d).lookup ds

/-- Put a leaf at the end of the path, creating the tables on the way. -/
def insert (a : α) : List (Fin w) → Node w α → Inserted (Node w α)
  | [], .empty => .done (.leaf a)
  | [], .leaf _ => .occupied
  | [], .table _ => .tableAtEnd
  | d :: ds, .empty =>
    match insert a ds .empty with
    | .done x => .done (.table (Function.update (fun _ => .empty) d x))
    | .occupied => .occupied
    | .tableAtEnd => .tableAtEnd
  | _ :: _, .leaf _ => .occupied
  | d :: ds, .table t =>
    match insert a ds (t d) with
    | .done x => .done (.table (Function.update t d x))
    | .occupied => .occupied
    | .tableAtEnd => .tableAtEnd

/-- The leaves in index order. -/
def values : Node w α → List α
  | .empty => []
  | .leaf a => [a]
  | .table t => (List.finRange w).flatMap fun i => (t i).values

/-- Visit the leaves in index order. -/
def forEach {π σ ε : Type} (f : α → Prog π σ ε Unit) : Node w α → Prog π σ ε Unit
  | .empty => Prog.pure ()
  | .leaf a => f a
  | .table t => Prog.forEach (fun i => (t i).forEach f) (List.finRange w)

/-- Every leaf sits exactly `n` levels down. -/
def AtDepth : Nat → Node w α → Prop
  | _, .empty => True
  | n, .leaf _ => n = 0
  | 0, .table _ => False
  | n + 1, .table t => ∀ i, AtDepth n (t i)

@[simp] theorem lookup_empty (ds : List (Fin w)) :
    (Node.empty : Node w α).lookup ds = none := by cases ds <;> rfl

@[simp] theorem lookup_leaf (a : α) (ds : List (Fin w)) :
    (Node.leaf a).lookup ds = some a := by cases ds <;> rfl

@[simp] theorem lookup_table_cons (t : Fin w → Node w α) (d : Fin w) (ds : List (Fin w)) :
    (Node.table t).lookup (d :: ds) = (t d).lookup ds := rfl

@[simp] theorem atDepth_empty : AtDepth n (Node.empty : Node w α) := by cases n <;> trivial

@[simp] theorem atDepth_leaf (a : α) : AtDepth n (Node.leaf a : Node w α) ↔ n = 0 := by
  cases n <;> rfl

@[simp] theorem atDepth_table_succ (t : Fin w → Node w α) :
    AtDepth (n + 1) (Node.table t) ↔ ∀ i, AtDepth n (t i) := Iff.rfl

/-! ## Inserting -/

/-- The one way a table is entered on a non-empty path. -/
theorem insert_cons_done {a : α} {d : Fin w} {ds : List (Fin w)} {t y : Node w α}
    (h : insert a (d :: ds) t = .done y) :
    ∃ f x, (t = .table f ∨ t = .empty ∧ f = fun _ => .empty) ∧
      insert a ds (f d) = .done x ∧ y = .table (Function.update f d x) := by
  cases t with
  | leaf b => simp [insert] at h
  | empty =>
    simp only [insert] at h
    split at h
    · rename_i x hx
      cases h
      exact ⟨_, x, .inr ⟨rfl, rfl⟩, hx, rfl⟩
    · cases h
    · cases h
  | table f =>
    simp only [insert] at h
    split at h
    · rename_i x hx
      cases h
      exact ⟨f, x, .inl rfl, hx, rfl⟩
    · cases h
    · cases h

/-- A path through an empty entry and through a table of empty entries see the same. -/
theorem lookup_cons_of_entered {t : Node w α} {f : Fin w → Node w α}
    (h : t = .table f ∨ t = .empty ∧ f = fun _ => .empty) (d : Fin w) (ds : List (Fin w)) :
    t.lookup (d :: ds) = (f d).lookup ds := by
  rcases h with rfl | ⟨rfl, rfl⟩
  · rfl
  · simp

theorem lookup_insert_self {a : α} :
    ∀ {ds : List (Fin w)} {t y : Node w α}, insert a ds t = .done y → y.lookup ds = some a
  | [], .empty, y, h => by cases h; rfl
  | [], .leaf b, y, h => by simp [insert] at h
  | [], .table f, y, h => by simp [insert] at h
  | d :: ds, t, y, h => by
      obtain ⟨f, x, -, hx, rfl⟩ := insert_cons_done h
      simp [lookup_insert_self hx]

theorem lookup_insert_ne {a : α} :
    ∀ {ds es : List (Fin w)} {t y : Node w α}, insert a ds t = .done y →
      es.length = ds.length → es ≠ ds → y.lookup es = t.lookup es
  | [], es, t, y, _, hl, hne => absurd (List.length_eq_zero_iff.mp hl) hne
  | d :: ds, [], t, y, _, hl, _ => by simp at hl
  | d :: ds, e :: es, t, y, h, hl, hne => by
      obtain ⟨f, x, ht, hx, rfl⟩ := insert_cons_done h
      rw [lookup_cons_of_entered ht, lookup_table_cons]
      by_cases hed : e = d
      · subst hed
        have hne' : es ≠ ds := fun hc => hne (by rw [hc])
        have hx' : insert a ds (f e) = .done x := hx
        simpa using lookup_insert_ne hx' (by simpa using hl) hne'
      · simp [Function.update_of_ne hed]

theorem insert_atDepth {a : α} :
    ∀ {n : Nat} {ds : List (Fin w)} {t y : Node w α}, AtDepth n t → ds.length = n →
      insert a ds t = .done y → AtDepth n y
  | _, [], .empty, y, _, hl, h => by cases h; simpa using hl.symm
  | _, [], .leaf b, y, _, _, h => by simp [insert] at h
  | _, [], .table f, y, _, _, h => by simp [insert] at h
  | 0, d :: ds, t, y, _, hl, _ => by simp at hl
  | n + 1, d :: ds, t, y, ht, hl, h => by
      obtain ⟨f, x, hf, hx, rfl⟩ := insert_cons_done h
      have hall : ∀ i, AtDepth n (f i) := by
        rcases hf with rfl | ⟨rfl, rfl⟩
        · exact ht
        · exact fun _ => atDepth_empty
      intro i
      by_cases hid : i = d
      · subst hid
        simpa using insert_atDepth (hall i) (by simpa using hl) hx
      · simpa [Function.update_of_ne hid] using hall i

/-- At the right depth, an insertion only depends on what `lookup` knows. -/
theorem insert_of_atDepth {a : α} :
    ∀ {n : Nat} {ds : List (Fin w)} {t : Node w α}, AtDepth n t → ds.length = n →
      (t.lookup ds = none → ∃ y, insert a ds t = .done y) ∧
      (t.lookup ds ≠ none → insert a ds t = .occupied)
  | _, [], .empty, _, _ => ⟨fun _ => ⟨_, rfl⟩, fun h => absurd rfl h⟩
  | _, [], .leaf b, _, _ => ⟨fun h => by simp at h, fun _ => rfl⟩
  | 0, [], .table f, ht, _ => ht.elim
  | n + 1, [], .table f, _, hl => by simp at hl
  | 0, d :: ds, t, _, hl => by simp at hl
  | n + 1, d :: ds, .leaf b, ht, _ => by simp at ht
  | n + 1, d :: ds, .empty, _, hl => by
      obtain ⟨y, hy⟩ :=
        (insert_of_atDepth (a := a) (t := (.empty : Node w α)) (n := n) atDepth_empty
          (show ds.length = n by simpa using hl)).1 (by simp)
      refine ⟨fun _ => ?_, fun h => absurd (lookup_empty _) h⟩
      simp [insert, hy]
  | n + 1, d :: ds, .table f, ht, hl => by
      have ih := insert_of_atDepth (a := a) (ht d) (show ds.length = n by simpa using hl)
      constructor
      · intro hn
        obtain ⟨y, hy⟩ := ih.1 hn
        simp [insert, hy]
      · intro hn
        simp [insert, ih.2 hn]

/-! ## The walk -/

@[simp] theorem values_empty : (Node.empty : Node w α).values = [] := rfl

@[simp] theorem values_leaf (a : α) : (Node.leaf a : Node w α).values = [a] := rfl

theorem values_table (t : Fin w → Node w α) :
    (Node.table t).values = (List.finRange w).flatMap fun i => (t i).values := rfl

/-- Visiting a table is a loop over its values. -/
theorem forEach_eq {π σ ε : Type} (f : α → Prog π σ ε Unit) :
    ∀ t : Node w α, t.forEach f = Prog.forEach f t.values
  | .empty => rfl
  | .leaf a => by
      funext s
      simp only [forEach, values, Prog.forEach, Prog.bind]
      cases f a s <;> rfl
  | .table t => by
      simp only [forEach, forEach_eq f, values_table]
      exact Prog.forEach_flatMap f _ _

-- a walk is only ever reasoned about as the loop over its values
attribute [irreducible] Node.forEach

/-- An insertion adds its value to the walk, and nothing else. -/
theorem values_insert {a : α} :
    ∀ {ds : List (Fin w)} {t y : Node w α}, insert a ds t = .done y →
      y.values.Perm (a :: t.values)
  | [], .empty, y, h => by cases h; exact .refl _
  | [], .leaf b, y, h => by simp [insert] at h
  | [], .table f, y, h => by simp [insert] at h
  | d :: ds, t, y, h => by
      obtain ⟨f, x, ht, hx, rfl⟩ := insert_cons_done h
      have hvals : t.values = (List.finRange w).flatMap fun i => (f i).values := by
        rcases ht with rfl | ⟨rfl, rfl⟩
        · rfl
        · simp
      rw [values_table, hvals]
      refine flatMap_perm_cons (List.nodup_finRange w) (List.mem_finRange d) ?_ fun i hi => ?_
      · rw [Function.update_self]
        exact values_insert hx
      · rw [Function.update_of_ne hi]

/-- The walk meets exactly the values that some path of the table's depth finds. -/
theorem mem_values_iff {a : α} :
    ∀ {n : Nat} {t : Node w α}, AtDepth n t →
      (a ∈ t.values ↔ ∃ ds : List (Fin w), ds.length = n ∧ t.lookup ds = some a)
  | n, .empty, _ => by simp
  | n, .leaf b, h => by
      have hn : n = 0 := by simpa using h
      subst hn
      simp [eq_comm]
  | 0, .table t, h => h.elim
  | n + 1, .table t, h => by
      simp only [values_table, List.mem_flatMap, List.mem_finRange, true_and]
      constructor
      · rintro ⟨i, hi⟩
        obtain ⟨ds, hl, hds⟩ := (mem_values_iff (h i)).mp hi
        exact ⟨i :: ds, by simp [hl], hds⟩
      · rintro ⟨ds, hl, hds⟩
        cases ds with
        | nil => simp at hl
        | cons d ds =>
          exact ⟨d, (mem_values_iff (h d)).mpr ⟨ds, by simpa using hl, hds⟩⟩

end Node

/-! ## Tables whose leaves sit at one depth -/

/-- A radix table of fan-out `w` whose paths have `n + 1` digits. -/
structure Table (w n : Nat) (α : Type) where
  entries : Fin w → Node w α
  atDepth : ∀ i, (entries i).AtDepth n

namespace Table

variable {w n : Nat} {α : Type}

/-- `vec![None; w]`. -/
def new : Table w n α := ⟨fun _ => .empty, fun _ => Node.atDepth_empty⟩

/-- The table as an entry of its own. -/
def root (t : Table w n α) : Node w α := .table t.entries

theorem root_atDepth (t : Table w n α) : t.root.AtDepth (n + 1) := t.atDepth

def lookup (t : Table w n α) (ds : List (Fin w)) : Option α := t.root.lookup ds

def values (t : Table w n α) : List α := t.root.values

/-- Keep the result of an insertion below entry `d`. -/
def set (t : Table w n α) (d : Fin w) (x : Node w α) (hx : x.AtDepth n) : Table w n α where
  entries := Function.update t.entries d x
  atDepth i := by
    by_cases h : i = d
    · subst h; simpa using hx
    · simpa [Function.update_of_ne h] using t.atDepth i

/-- Insertion on a path whose length fits, which is never `tableAtEnd`. -/
def insert (t : Table w n α) (d : Fin w) (ds : List (Fin w)) (hl : ds.length = n) (a : α) :
    Option (Table w n α) :=
  match h : Node.insert a ds (t.entries d) with
  | .done x => some (t.set d x (Node.insert_atDepth (t.atDepth d) hl h))
  | .occupied => none
  | .tableAtEnd => none

@[simp] theorem lookup_new (ds : List (Fin w)) :
    (new : Table w n α).lookup ds = none := by
  cases ds <;> simp [lookup, root, new, Node.lookup]

@[simp] theorem values_new : (new : Table w n α).values = [] := by
  simp [values, root, new, Node.values_table]

variable {t t' : Table w n α} {d : Fin w} {ds : List (Fin w)} {hl : ds.length = n} {a : α}

/-- A typed insertion is the raw one on the table's root. -/
theorem insert_eq_some (h : t.insert d ds hl a = some t') :
    Node.insert a (d :: ds) t.root = .done t'.root := by
  unfold insert at h
  split at h
  · rename_i x hx
    cases h
    simp only [root, Node.insert, hx]
    rfl
  · cases h
  · cases h

theorem lookup_insert_self (h : t.insert d ds hl a = some t') :
    t'.lookup (d :: ds) = some a :=
  Node.lookup_insert_self (insert_eq_some h)

theorem lookup_insert_ne (h : t.insert d ds hl a = some t') {es : List (Fin w)}
    (hes : es.length = n + 1) (hne : es ≠ d :: ds) : t'.lookup es = t.lookup es :=
  Node.lookup_insert_ne (insert_eq_some h) (by simp [hes, hl]) hne

theorem values_insert (h : t.insert d ds hl a = some t') :
    t'.values.Perm (a :: t.values) :=
  Node.values_insert (insert_eq_some h)

theorem mem_values_iff {b : α} :
    b ∈ t.values ↔ ∃ es : List (Fin w), es.length = n + 1 ∧ t.lookup es = some b :=
  Node.mem_values_iff t.root_atDepth

/-- Insertion fails exactly on a key the table already has. -/
theorem insert_eq_none_iff : t.insert d ds hl a = none ↔ t.lookup (d :: ds) ≠ none := by
  have hspec := Node.insert_of_atDepth (a := a) (t.atDepth d) hl
  have hlook : t.lookup (d :: ds) = (t.entries d).lookup ds := rfl
  rw [hlook]
  unfold insert
  split
  · rename_i x hx
    simp only [reduceCtorEq, false_iff, not_not]
    by_contra hne
    rw [hspec.2 hne] at hx
    cases hx
  · rename_i hx
    simp only [true_iff]
    intro hn
    obtain ⟨y, hy⟩ := hspec.1 hn
    rw [hy] at hx
    cases hx
  · rename_i hx
    simp only [true_iff]
    intro hn
    obtain ⟨y, hy⟩ := hspec.1 hn
    rw [hy] at hx
    cases hx

end Table

end Smos.Base
