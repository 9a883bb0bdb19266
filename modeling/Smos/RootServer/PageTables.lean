/-
Smos.RootServer.PageTables — the tables of objects and views as maps by page.

`lookup_frame` and `insert_frame_at`, and `lookup_cap` and `insert_cap_at`,
are loops over four levels of 512 entries. They are written out here as the
source has them, on tables that may hold a leaf or a further table anywhere:
an insertion makes the tables on its way before it knows how it ends, and
panics when it ends at a table. `PageTable` is the type of the tables where
every leaf sits at the last level, and on those the loops are its
`lookupAt` and `insertAt`.

A table that was filled by insertions answers, for each page, what was
inserted there first (`tries_run`). An offset is cut to 48 bits on the way,
so the pages of an object are told apart up to that size (`tableBytes`) only.
The size test of `handle_obj_create` compares a number of pages with a
number of bytes.
-/
import Smos.Base.Run
import Smos.RootServer.HandlerSpecs

namespace Smos.RootServer

open Smos.Base

/-! ## The loops -/

/-- A table of entries. -/
abbrev Entries (α : Type) := Fin 512 → Node 512 α

section Loops

variable {α : Type}

/-- The loop of `lookup_frame` and `lookup_cap`, with the levels that are left. -/
def lookupLoop (offset : Nat) : Nat → Nat → Entries α → Option α
  | 0, _, _ => none
  | levels + 1, shift, table =>
    match table (levelIndex offset shift) with
    | .empty => none
    | .leaf a => some a
    | .table t => lookupLoop offset levels (shift - 9) t

/-- The table that an entry leads to, which is made when there is none. -/
def tableBelow : Node 512 α → Option (Entries α)
  | .empty => some fun _ => .empty
  | .leaf _ => none
  | .table t => some t

/-- The loop of `insert_frame_at` and `insert_cap_at`, with the levels above the last. -/
def insertLoop (offset : Nat) (a : α) : Nat → Nat → Prog Panic (Entries α) Sel4Error Unit
  | 0, shift => fun table =>
    match table (levelIndex offset shift) with
    | .empty => .ok () (Function.update table (levelIndex offset shift) (.leaf a))
    | .leaf _ => .err .deleteFirst table
    | .table _ => .panic .assertionFailed
  | levels + 1, shift => fun table =>
    let index := levelIndex offset shift
    match tableBelow (table index) with
    | none => .err .deleteFirst table
    | some t =>
      match insertLoop offset a levels (shift - 9) t with
      | .ok u t => .ok u (Function.update table index (.table t))
      | .err e t => .err e (Function.update table index (.table t))
      | .panic p => .panic p

/-- The indices a loop meets. -/
def loopPath (offset : Nat) : Nat → Nat → List (Fin 512)
  | 0, _ => []
  | levels + 1, shift => levelIndex offset shift :: loopPath offset levels (shift - 9)

theorem path_eq (offset : Nat) : path offset = loopPath offset 4 39 := rfl

theorem loopPath_length (offset : Nat) : ∀ levels shift, (loopPath offset levels shift).length = levels
  | 0, _ => rfl
  | levels + 1, shift => congrArg Nat.succ (loopPath_length offset levels (shift - 9))

/-- Looking up follows the path. -/
theorem lookupLoop_eq (offset : Nat) : ∀ (levels shift : Nat) (table : Entries α),
    lookupLoop offset levels shift table = (Node.table table).lookup (loopPath offset levels shift)
  | 0, _, _ => rfl
  | levels + 1, shift, table => by
      rw [lookupLoop, loopPath, Node.lookup_table_cons]
      cases table (levelIndex offset shift) with
      | empty => rw [Node.lookup_empty]
      | leaf a => rw [Node.lookup_leaf]
      | table t => exact lookupLoop_eq offset levels (shift - 9) t

/-- Below an entry that is no leaf, the path goes on in a table. -/
theorem tableBelow_spec {x : Node 512 α} {levels : Nat} (h : x.AtDepth (levels + 1)) :
    ∃ t, tableBelow x = some t ∧ (Node.table t).AtDepth (levels + 1) ∧
      (∀ d ds, (Node.table t).lookup (d :: ds) = x.lookup (d :: ds)) ∧
      ∀ a d ds, Node.insert a (d :: ds) (Node.table t) = Node.insert a (d :: ds) x := by
  cases x with
  | empty =>
    refine ⟨fun _ => .empty, rfl, fun _ => Node.atDepth_empty, fun d ds => ?_, fun a d ds => rfl⟩
    rw [Node.lookup_table_cons, Node.lookup_empty, Node.lookup_empty]
  | leaf a => cases h
  | table t => exact ⟨t, rfl, h, fun _ _ => rfl, fun _ _ _ => rfl⟩

/-- Inserting follows the path, too. -/
theorem insertLoop_free (offset : Nat) (a : α) : ∀ (levels shift : Nat) (table : Entries α),
    (Node.table table).AtDepth (levels + 1) →
    (Node.table table).lookup (loopPath offset (levels + 1) shift) = none →
      ∃ t, insertLoop offset a levels shift table = .ok () t ∧
        Node.insert a (loopPath offset (levels + 1) shift) (.table table) = .done (.table t)
  | 0, shift, table, h, hfree => by
      have hi := h (levelIndex offset shift)
      rw [loopPath, Node.lookup_table_cons] at hfree
      cases hentry : table (levelIndex offset shift) with
      | empty =>
        refine ⟨Function.update table (levelIndex offset shift) (.leaf a), ?_, ?_⟩
        · simp only [insertLoop, hentry]
        · simp only [loopPath, Node.insert, hentry]
      | leaf b =>
        rw [hentry, Node.lookup_leaf] at hfree
        cases hfree
      | table t =>
        rw [hentry] at hi
        exact hi.elim
  | levels + 1, shift, table, h, hfree => by
      obtain ⟨t, hbelow, ht, hlookup, hinsert⟩ := tableBelow_spec (h (levelIndex offset shift))
      rw [loopPath, Node.lookup_table_cons, loopPath, ← hlookup] at hfree
      obtain ⟨t', hrun, hdone⟩ := insertLoop_free offset a levels (shift - 9) t ht hfree
      refine ⟨Function.update table (levelIndex offset shift) (.table t'), ?_, ?_⟩
      · simp only [insertLoop, hbelow, hrun]
      · rw [loopPath] at hdone
        rw [loopPath, Node.insert, loopPath, ← hinsert, hdone]

/-- An insertion that finds the page taken changes nothing. -/
theorem insertLoop_taken (offset : Nat) (a : α) : ∀ (levels shift : Nat) (table : Entries α),
    (Node.table table).AtDepth (levels + 1) →
    (Node.table table).lookup (loopPath offset (levels + 1) shift) ≠ none →
      insertLoop offset a levels shift table = .err .deleteFirst table
  | 0, shift, table, h, htaken => by
      have hi := h (levelIndex offset shift)
      rw [loopPath, Node.lookup_table_cons] at htaken
      cases hentry : table (levelIndex offset shift) with
      | empty =>
        rw [hentry, Node.lookup_empty] at htaken
        exact absurd rfl htaken
      | leaf b => simp only [insertLoop, hentry]
      | table t =>
        rw [hentry] at hi
        exact hi.elim
  | levels + 1, shift, table, h, htaken => by
      have hi := h (levelIndex offset shift)
      obtain ⟨t, hbelow, ht, hlookup, -⟩ := tableBelow_spec hi
      rw [loopPath, Node.lookup_table_cons] at htaken
      have htable : table (levelIndex offset shift) = .table t := by
        cases hentry : table (levelIndex offset shift) with
        | empty =>
          rw [hentry, Node.lookup_empty] at htaken
          exact absurd rfl htaken
        | leaf b =>
          rw [hentry] at hi
          cases hi
        | table t' =>
          rw [hentry] at hbelow
          cases hbelow
          rfl
      rw [loopPath, ← hlookup] at htaken
      have hrun := insertLoop_taken offset a levels (shift - 9) t ht htaken
      simp only [insertLoop, hbelow, hrun, ← htable, Function.update_eq_self]

end Loops

/-! ## Pages as keys -/

/-- The bytes that a table can tell apart: an offset is cut to 48 bits. -/
def tableBytes : Nat := objLvlMax ^ 4 * pageSize4K

/-- The path of an offset is that of its page, and pages are cut to as many as a table has. -/
theorem path_eq_iff_mod (x y : Nat) :
    path x = path y ↔ x / pageSize4K % objLvlMax ^ 4 = y / pageSize4K % objLvlMax ^ 4 := by
  simp only [path, lowerPath, levelIndex, List.cons.injEq, Fin.ext_iff, Fin.ofNat,
    Nat.shiftRight_eq_div_pow, and_true]
  unfold objLvlMax pageSize4K
  omega

/-- Pages below the bound have paths of their own. -/
theorem path_eq_iff {x y : Nat} (hx : x < tableBytes) (hy : y < tableBytes) :
    path x = path y ↔ x / pageSize4K = y / pageSize4K := by
  have hlt : ∀ {z : Nat}, z < tableBytes → z / pageSize4K < objLvlMax ^ 4 := fun hz =>
    Nat.div_lt_of_lt_mul (by rwa [Nat.mul_comm])
  rw [path_eq_iff_mod, Nat.mod_eq_of_lt (hlt hx), Nat.mod_eq_of_lt (hlt hy)]

/-- An offset and the start of its page have one path. -/
theorem path_roundDown (x : Nat) : path (roundDown x) = path x := by
  rw [path_eq_iff_mod]
  have hpage : roundDown x / pageSize4K = x / pageSize4K :=
    Nat.mul_div_cancel _ (by decide : 0 < pageSize4K)
  rw [hpage]

/-- Offsets of one path stay so when they are moved by whole pages. -/
theorem path_shift {w b x y : Nat} (hw : w % pageSize4K = 0) (hb : b % pageSize4K = 0)
    (hx : w ≤ x) (hy : w ≤ y) (h : path x = path y) : path (b + (x - w)) = path (b + (y - w)) := by
  rw [path_eq_iff_mod] at h ⊢
  unfold objLvlMax pageSize4K at *
  omega

/-- The table has the values of a map from pages. -/
structure Keyed {α : Type} (t : Entries α) (m : Nat → Option α) : Prop where
  depth : (Node.table t).AtDepth 4
  lookup : ∀ offset < tableBytes, lookupLoop offset 4 39 t = m (offset / pageSize4K)

namespace Keyed

variable {α : Type} {t : Entries α} {m : Nat → Option α} {offset : Nat}

theorem new : Keyed (fun _ => .empty : Entries α) fun _ => none :=
  ⟨fun _ => Node.atDepth_empty, fun _ _ => rfl⟩

/-- An insertion at a free page sets that page, and no other. -/
theorem insert_free (h : Keyed t m) (ho : offset < tableBytes) (a : α)
    (hfree : m (offset / pageSize4K) = none) : ∃ t', insertLoop offset a 3 39 t = .ok () t' ∧
      Keyed t' (Function.update m (offset / pageSize4K) (some a)) := by
  have hnone := h.lookup offset ho
  rw [hfree, lookupLoop_eq] at hnone
  obtain ⟨t', hrun, hdone⟩ := insertLoop_free offset a 3 39 t h.depth hnone
  refine ⟨t', hrun, Node.insert_atDepth h.depth (loopPath_length offset 4 39) hdone, ?_⟩
  intro offset' ho'
  rw [lookupLoop_eq]
  by_cases hpage : offset' / pageSize4K = offset / pageSize4K
  · have hpath : loopPath offset' 4 39 = loopPath offset 4 39 := (path_eq_iff ho' ho).mpr hpage
    rw [hpage, Function.update_self, hpath]
    exact Node.lookup_insert_self hdone
  · have hpath : loopPath offset' 4 39 ≠ loopPath offset 4 39 :=
      fun heq => hpage ((path_eq_iff ho' ho).mp heq)
    rw [Function.update_of_ne hpage, Node.lookup_insert_ne hdone _ hpath, ← lookupLoop_eq]
    · exact h.lookup offset' ho'
    · rw [loopPath_length, loopPath_length]

/-- An insertion at a page that is taken changes nothing. -/
theorem insert_taken (h : Keyed t m) (ho : offset < tableBytes) (a : α)
    (htaken : m (offset / pageSize4K) ≠ none) :
    insertLoop offset a 3 39 t = .err .deleteFirst t := by
  refine insertLoop_taken offset a 3 39 t h.depth ?_
  rw [← lookupLoop_eq, h.lookup offset ho]
  exact htaken

end Keyed

/-! ## Runs of insertions -/

namespace Tries

/-- An insertion at one offset into both tables. -/
structure Insertion where
  offset : Nat
  frame : ObjectFrame
  cap : Slot

/-- The frame table of an object and the capability table of a view. -/
structure Pair where
  frames : Entries ObjectFrame
  caps : Entries Slot

/-- The table after an insertion, unless it panics. -/
def after {α : Type} : Outcome Panic (Entries α) Sel4Error Unit → Option (Entries α)
  | .ok _ t => some t
  | .err _ t => some t
  | .panic _ => none

def call (s : Pair) (op : Insertion) : Option Pair := do
  let frames ← after (insertLoop op.offset op.frame 3 39 s.frames)
  let caps ← after (insertLoop op.offset op.cap 3 39 s.caps)
  some ⟨frames, caps⟩

/-- Two new tables. -/
def New (s : Pair) : Prop := s = ⟨fun _ => .empty, fun _ => .empty⟩

/-- The first insertion at a page. -/
def firstAt (ops : List Insertion) (page : Nat) : Option Insertion :=
  ops.find? fun op => op.offset / pageSize4K == page

/-- A table is the map of what was inserted first at each page. -/
structure Lawful {α : Type} (value : Insertion → α) (ops : List Insertion) (t : Entries α) :
    Prop where
  /-- Leaves at the last level, tables above. -/
  depth : (Node.table t).AtDepth 4
  lookup : ∀ offset < tableBytes,
    lookupLoop offset 4 39 t = (firstAt ops (offset / pageSize4K)).map value
  insert : ∀ op : Insertion, op.offset < tableBytes →
    (firstAt ops (op.offset / pageSize4K) = none →
      ∃ t', insertLoop op.offset (value op) 3 39 t = .ok () t') ∧
    (firstAt ops (op.offset / pageSize4K) ≠ none →
      insertLoop op.offset (value op) 3 39 t = .err .deleteFirst t)

theorem firstAt_append (ops : List Insertion) (op : Insertion) (page : Nat) :
    firstAt (ops ++ [op]) page =
      (firstAt ops page).or (if op.offset / pageSize4K = page then some op else none) := by
  unfold firstAt
  rw [List.find?_append]
  by_cases h : op.offset / pageSize4K = page
  · simp [h]
  · simp [h]

/-- The map after an insertion. -/
theorem keyed_after {α : Type} {value : Insertion → α} {ops : List Insertion} {op : Insertion}
    {t t' : Entries α} (h : Keyed t fun page => (firstAt ops page).map value)
    (ho : op.offset < tableBytes) (hrun : after (insertLoop op.offset (value op) 3 39 t) = some t') :
    Keyed t' fun page => (firstAt (ops ++ [op]) page).map value := by
  cases hfirst : firstAt ops (op.offset / pageSize4K) with
  | none =>
    obtain ⟨t₁, hok, hkeyed⟩ := h.insert_free ho (value op) (by simp [hfirst])
    rw [hok] at hrun
    cases hrun
    refine ⟨hkeyed.depth, fun offset hlt => (hkeyed.lookup offset hlt).trans ?_⟩
    rw [firstAt_append]
    by_cases hpage : offset / pageSize4K = op.offset / pageSize4K
    · rw [hpage, Function.update_self, hfirst]
      simp
    · rw [Function.update_of_ne hpage, if_neg (Ne.symm hpage), Option.or_none]
  | some first =>
    rw [h.insert_taken ho (value op) (by simp [hfirst])] at hrun
    cases hrun
    refine ⟨h.depth, fun offset hlt => (h.lookup offset hlt).trans ?_⟩
    rw [firstAt_append]
    by_cases hpage : offset / pageSize4K = op.offset / pageSize4K
    · rw [hpage, hfirst]
      rfl
    · rw [if_neg (Ne.symm hpage), Option.or_none]

theorem Lawful.of_keyed {α : Type} {value : Insertion → α} {ops : List Insertion} {t : Entries α}
    (h : Keyed t fun page => (firstAt ops page).map value) : Lawful value ops t where
  depth := h.depth
  lookup := h.lookup
  insert op ho := by
    refine ⟨fun hfree => ?_, fun htaken => ?_⟩
    · obtain ⟨t', hok, -⟩ := h.insert_free ho (value op) (by simp [hfree])
      exact ⟨t', hok⟩
    · exact h.insert_taken ho (value op) (by simpa using htaken)

theorem run_keyed {ops : List Insertion} {s : Pair}
    (run : Run New call (fun _ op => op.offset < tableBytes) ops s) :
    (Keyed s.frames fun page => (firstAt ops page).map Insertion.frame) ∧
      Keyed s.caps fun page => (firstAt ops page).map Insertion.cap := by
  induction run with
  | init h =>
    rw [h]
    exact ⟨.new, .new⟩
  | step run ok hn ih =>
    simp only [call, Option.bind_eq_bind, Option.bind_eq_some_iff, Option.some.injEq] at hn
    obtain ⟨frames, hframes, caps, hcaps, rfl⟩ := hn
    exact ⟨keyed_after ih.1 ok hframes, keyed_after ih.2 ok hcaps⟩

/-- After any run of insertions both tables are the map of what was inserted first at each page,
so they know the same pages. -/
theorem tries_run {ops : List Insertion} {s : Pair}
    (run : Run New call (fun _ op => op.offset < tableBytes) ops s) :
    Lawful Insertion.frame ops s.frames ∧ Lawful Insertion.cap ops s.caps ∧
      ∀ offset < tableBytes, (lookupLoop offset 4 39 s.frames).isSome =
        (lookupLoop offset 4 39 s.caps).isSome := by
  obtain ⟨hframes, hcaps⟩ := run_keyed run
  refine ⟨.of_keyed hframes, .of_keyed hcaps, fun offset ho => ?_⟩
  rw [hframes.lookup offset ho, hcaps.lookup offset ho, Option.isSome_map, Option.isSome_map]

/-- The third insertion finds the page of the first. -/
theorem tries_run_three : ∃ s, Run New call (fun _ op => op.offset < tableBytes)
    [⟨0, ⟨10, 1⟩, 20⟩, ⟨2 ^ 39, ⟨11, 2⟩, 21⟩, ⟨4, ⟨12, 3⟩, 22⟩] s ∧
    lookupLoop 8 4 39 s.caps = some 20 ∧
    Lawful Insertion.cap [⟨0, ⟨10, 1⟩, 20⟩, ⟨2 ^ 39, ⟨11, 2⟩, 21⟩, ⟨4, ⟨12, 3⟩, 22⟩] s.caps := by
  have hrun : ∃ s, Run New call (fun _ op => op.offset < tableBytes)
      [⟨0, ⟨10, 1⟩, 20⟩, ⟨2 ^ 39, ⟨11, 2⟩, 21⟩, ⟨4, ⟨12, 3⟩, 22⟩] s ∧
      lookupLoop 8 4 39 s.caps = some 20 :=
    Run.exists_of_steps rfl (by decide) (by decide +kernel)
  obtain ⟨s, run, hlookup⟩ := hrun
  exact ⟨s, run, hlookup, (tries_run run).2.1⟩

end Tries

/-! ## The tables of the handlers -/

section Handlers

variable {α : Type}

theorem lookupAt_eq_loop (t : PageTable α) (offset : Nat) :
    t.lookupAt offset = lookupLoop offset 4 39 t.entries := (lookupLoop_eq offset 4 39 t.entries).symm

/-- On a table with its leaves at the last level the loop is `insertAt`. -/
theorem insertLoop_eq_insertAt (t : PageTable α) (offset : Nat) (a : α) :
    insertLoop offset a 3 39 t.entries =
      match t.insertAt offset a with
      | .ok t' => .ok () t'.entries
      | .error e => .err e t.entries := by
  unfold PageTable.insertAt
  cases hins : Table.insert t (levelIndex offset 39) (lowerPath offset) rfl a with
  | none =>
    exact insertLoop_taken offset a 3 39 t.entries t.root_atDepth (Table.insert_eq_none_iff.mp hins)
  | some t' =>
    have hfree : t.root.lookup (loopPath offset 4 39) = none := by
      by_contra hne
      have hnone : Table.insert t (levelIndex offset 39) (lowerPath offset) rfl a = none :=
        Table.insert_eq_none_iff.mpr hne
      rw [hnone] at hins
      cases hins
    obtain ⟨t₁, hrun, hdone⟩ := insertLoop_free offset a 3 39 t.entries t.root_atDepth hfree
    have hsame : Inserted.done t'.root = .done (Node.table t₁) :=
      (Table.insert_eq_some hins).symm.trans hdone
    cases hsame
    exact hrun

end Handlers

/-! ## The pages of an object -/

namespace AnonymousMemoryObject

variable {x y : AnonymousMemoryObject} {offset : Nat} {frame : ObjectFrame}

theorem insertFrameAt_ok (h : x.insertFrameAt offset frame = .ok y) :
    ∃ t, Table.insert x.frames (levelIndex offset 39) (lowerPath offset) rfl frame = some t ∧
      y = { x with frames := t } := by
  unfold insertFrameAt PageTable.insertAt at h
  cases hins : Table.insert x.frames (levelIndex offset 39) (lowerPath offset) rfl frame with
  | none =>
    rw [hins] at h
    cases h
  | some t =>
    rw [hins] at h
    cases h
    exact ⟨t, rfl, rfl⟩

theorem exists_insertFrameAt (h : x.lookupFrame offset = none) :
    ∃ y, x.insertFrameAt offset frame = .ok y := by
  unfold insertFrameAt PageTable.insertAt
  cases hins : Table.insert x.frames (levelIndex offset 39) (lowerPath offset) rfl frame with
  | none => exact absurd h (Table.insert_eq_none_iff.mp hins)
  | some t => exact ⟨_, rfl⟩

theorem lookupFrame_new (size : Nat) (rights : CapRights) (attributes : ObjAttributes)
    (offset : Nat) : (new size rights attributes).lookupFrame offset = none :=
  Table.lookup_new _

/-- Frames at consecutive pages, and what was there before. -/
structure Filled (offset : Nat) (fs : List ObjectFrame) (x y : AnonymousMemoryObject) : Prop where
  count : y.frames.values.length = x.frames.values.length + fs.length
  inside : ∀ i f, fs[i]? = some f → y.lookupFrame (offset + i * pageSize4K) = some f
  outside : ∀ offset' < tableBytes, (∀ i < fs.length, offset' / pageSize4K ≠
    offset / pageSize4K + i) → y.lookupFrame offset' = x.lookupFrame offset'

/-- One insertion. -/
theorem filled_one (h : x.insertFrameAt offset frame = .ok y) (ho : offset < tableBytes) :
    Filled offset [frame] x y := by
  obtain ⟨t, hins, rfl⟩ := insertFrameAt_ok h
  refine ⟨(Table.values_insert hins).length_eq, fun i f hf => ?_, fun offset' ho' hne => ?_⟩
  · cases i with
    | zero =>
      cases hf
      rw [Nat.zero_mul, Nat.add_zero]
      exact Table.lookup_insert_self hins
    | succ i => cases hf
  · have hpath : path offset' ≠ path offset :=
      fun heq => hne 0 Nat.one_pos ((path_eq_iff ho' ho).mp heq)
    exact Table.lookup_insert_ne hins rfl hpath

theorem filled_of_inserted {fs : List ObjectFrame} (h : FramesInserted offset fs x y)
    (ha : offset % pageSize4K = 0) (ho : offset + fs.length * pageSize4K ≤ tableBytes) :
    Filled offset fs x y := by
  induction h with
  | nil offset x =>
    exact ⟨(Nat.add_zero _).symm, fun i f hf => absurd hf (by simp), fun _ _ _ => rfl⟩
  | @cons offset f fs x y z insert rest ih =>
    rw [List.length_cons] at ho
    have hnext : (offset + pageSize4K) / pageSize4K = offset / pageSize4K + 1 := by
      unfold pageSize4K
      omega
    have hpos : 0 < pageSize4K := by decide
    have hlt : offset < tableBytes := by
      rw [Nat.succ_mul] at ho
      omega
    have hone := filled_one insert hlt
    obtain ⟨hcount, hinside, houtside⟩ := ih (by rw [Nat.add_mod_right]; exact ha) (by
      rw [Nat.succ_mul] at ho
      omega)
    refine ⟨?_, fun i f' hf' => ?_, fun offset' ho' hne => ?_⟩
    · rw [hcount, hone.count, List.length_cons, List.length_cons, List.length_nil]
      omega
    · cases i with
      | zero =>
        cases hf'
        rw [Nat.zero_mul, Nat.add_zero, houtside offset hlt fun i _ => by omega]
        have hfirst := hone.inside 0 f rfl
        rwa [Nat.zero_mul, Nat.add_zero] at hfirst
      | succ i =>
        have hrest := hinside i f' hf'
        rwa [Nat.add_assoc, Nat.add_comm pageSize4K, ← Nat.succ_mul] at hrest
    · have hrest : z.lookupFrame offset' = y.lookupFrame offset' := by
        refine houtside offset' ho' fun i hi => ?_
        have hne' := hne (i + 1) (Nat.succ_lt_succ hi)
        omega
      refine hrest.trans (hone.outside offset' ho' fun i hi => hne i ?_)
      rw [List.length_cons, List.length_nil] at hi
      rw [List.length_cons]
      omega

/-- Free pages can be filled. -/
theorem exists_inserted {fs : List ObjectFrame} (ha : offset % pageSize4K = 0)
    (ho : offset + fs.length * pageSize4K ≤ tableBytes)
    (hfree : ∀ i < fs.length, x.lookupFrame (offset + i * pageSize4K) = none) :
    ∃ y, FramesInserted offset fs x y := by
  induction fs generalizing offset x with
  | nil => exact ⟨x, .nil offset x⟩
  | cons f fs ih =>
    have hpos : 0 < pageSize4K := by decide
    rw [List.length_cons, Nat.succ_mul] at ho
    have hfirst := hfree 0 (Nat.succ_pos _)
    rw [Nat.zero_mul, Nat.add_zero] at hfirst
    obtain ⟨y, hins⟩ : ∃ y, x.insertFrameAt offset f = .ok y := exists_insertFrameAt hfirst
    have hone := filled_one hins (by omega)
    have hexists : ∃ z, FramesInserted (offset + pageSize4K) fs y z := by
      refine ih (by rwa [Nat.add_mod_right]) (by omega) fun i hi => ?_
      have hnone := hfree (i + 1) (Nat.succ_lt_succ hi)
      have hmul : i * pageSize4K < fs.length * pageSize4K := Nat.mul_lt_mul_of_pos_right hi hpos
      rw [Nat.succ_mul, Nat.add_comm (i * pageSize4K), ← Nat.add_assoc] at hnone
      rw [hone.outside _ (by omega) fun j hj => ?_]
      · exact hnone
      · rw [List.length_singleton] at hj
        unfold pageSize4K
        omega
    obtain ⟨z, hrest⟩ := hexists
    exact ⟨z, .cons hins hrest⟩

end AnonymousMemoryObject

/-! ## The size test -/

/-- The sizes that `handle_obj_create` lets pass. -/
structure AcceptedSize (size : Nat) : Prop where
  pos : size ≠ 0
  aligned : size % pageSize4K = 0
  below : size / pageSize4K < maxObjSize

/-- All other sizes are refused before anything is created. -/
theorem handleObjCreate_refuses {p : Nat} {args : ObjCreateArgs} {dmaAnswer : Option Nat}
    {s : State} (h : ¬ AcceptedSize args.size) :
    handleObjCreate p args dmaAnswer s = .err .invalidArguments s := by
  unfold handleObjCreate
  split
  · rfl
  split
  · rfl
  split
  · rfl
  · next hsize hlarge =>
    rw [not_or, not_not] at hsize
    exact absurd ⟨hsize.1, hsize.2, Nat.lt_of_not_le hlarge⟩ h

/-- The pages below the size have leaves of their own, and an object of that size can be filled. -/
structure PagesApart (size : Nat) : Prop where
  leaves : ∀ x y, pageSize4K ∣ x → pageSize4K ∣ y → x < size → y < size → x ≠ y →
    path x ≠ path y
  eager : ∀ rights attributes (fs : List ObjectFrame), fs.length = size / pageSize4K →
    ∃ y, FramesInserted 0 fs (.new size rights attributes) y

/-- Of the accepted sizes, just those up to 2^48 keep the pages apart. -/
theorem pagesApart_iff {size : Nat} (h : AcceptedSize size) :
    PagesApart size ↔ size ≤ tableBytes := by
  constructor
  · intro hapart
    by_contra hlt
    rw [Nat.not_le] at hlt
    exact hapart.leaves 0 tableBytes (Nat.dvd_zero _) (Nat.dvd_mul_left _ _)
      (Nat.pos_of_ne_zero h.pos) hlt (by decide) (by decide)
  · intro hle
    refine ⟨fun x y hx hy hx' hy' hne heq => ?_, fun rights attributes fs hlength => ?_⟩
    · have hpage := (path_eq_iff (hx'.trans_le hle) (hy'.trans_le hle)).mp heq
      rw [← Nat.div_mul_cancel hx, hpage, Nat.div_mul_cancel hy] at hne
      exact hne rfl
    · refine AnonymousMemoryObject.exists_inserted rfl ?_ fun i _ =>
        AnonymousMemoryObject.lookupFrame_new _ _ _ _
      rw [hlength, Nat.zero_add]
      exact (Nat.div_mul_le_self _ _).trans hle

/-- The size of a program's stack. -/
theorem pagesApart_stack : AcceptedSize (stackPages * pageSize4K) ∧
    PagesApart (stackPages * pageSize4K) := by
  have haccepted : AcceptedSize (stackPages * pageSize4K) := ⟨by decide, by decide, by decide⟩
  exact ⟨haccepted, (pagesApart_iff haccepted).mpr (by decide)⟩

/-- One page more than a table can tell apart is accepted, and its last page is the first one. -/
theorem pagesApart_not : AcceptedSize (tableBytes + pageSize4K) ∧
    ¬ PagesApart (tableBytes + pageSize4K) ∧ path 0 = path tableBytes := by
  have haccepted : AcceptedSize (tableBytes + pageSize4K) := ⟨by decide, by decide, by decide⟩
  refine ⟨haccepted, fun h => ?_, by decide⟩
  exact h.leaves 0 tableBytes (Nat.dvd_zero _) (Nat.dvd_mul_left _ _) (by decide) (by decide)
    (by decide) (by decide)

end Smos.RootServer
