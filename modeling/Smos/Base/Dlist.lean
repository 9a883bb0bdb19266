/-
Smos.Base.Dlist — doubly linked lists over numbered cells.

The links are two functions from cells to cells, `next` and `prev`, and a
list header with the first and the last cell. `Dlist` says that they spell
out a given list: `Segment` follows it cell by cell between the cell before
and the cell after.

Each operation on the links has one lemma: `pushFront`, `pushBack` and
`remove`. A list does not notice links written elsewhere (`Dlist.congr`).
-/
import Mathlib.Data.BitVec
import Mathlib.Data.List.Basic
import Mathlib.Logic.Function.Basic

namespace Smos.Base

variable {ι : Type} {next prev next' prev' : ι → Option ι} {p n first last : Option ι} {l : List ι}
  {x : ι}

/-- The cells of the list are linked, from the cell before it to the cell after it. -/
def Segment (next prev : ι → Option ι) : Option ι → List ι → Option ι → Prop
  | _, [], _ => True
  | p, x :: xs, n => prev x = p ∧ next x = xs.head?.or n ∧ Segment next prev (some x) xs n

theorem segment_congr (h : ∀ x ∈ l, next' x = next x ∧ prev' x = prev x) :
    Segment next' prev' p l n ↔ Segment next prev p l n := by
  induction l generalizing p with
  | nil => exact Iff.rfl
  | cons x xs ih =>
    obtain ⟨hn, hp⟩ := h x List.mem_cons_self
    simp only [Segment, hn, hp]
    exact and_congr_right fun _ => and_congr_right fun _ =>
      ih fun y hy => h y (List.mem_cons_of_mem x hy)

theorem segment_append {xs ys : List ι} : Segment next prev p (xs ++ ys) n ↔
    Segment next prev p xs (ys.head?.or n) ∧ Segment next prev (xs.getLast?.or p) ys n := by
  induction xs generalizing p with
  | nil => simp [Segment]
  | cons x xs ih =>
    have hhead : (xs ++ ys).head?.or n = xs.head?.or (ys.head?.or n) := by
      cases xs <;> simp
    have hlast : (x :: xs).getLast?.or p = xs.getLast?.or (some x) := by
      cases xs with
      | nil => rfl
      | cons y xs =>
        rw [List.getLast?_cons_cons]
        cases hl : (y :: xs).getLast? with
        | none => simp at hl
        | some z => rfl
    simp only [List.cons_append, Segment, ih, hhead, hlast, and_assoc]

/-- Write a link of a cell that may not be there. -/
def setAt [DecidableEq ι] (f : ι → Option ι) : Option ι → Option ι → ι → Option ι
  | some i, v => Function.update f i v
  | none, _ => f

theorem setAt_of_ne [DecidableEq ι] {f : ι → Option ι} {o v : Option ι} (h : o ≠ some x) :
    setAt f o v x = f x := by
  cases o with
  | none => rfl
  | some i =>
    have hne : x ≠ i := by
      rintro rfl
      exact h rfl
    exact Function.update_of_ne hne _ _

/-- The links and the header spell out the list. -/
structure Dlist (next prev : ι → Option ι) (first last : Option ι) (l : List ι) : Prop where
  first : first = l.head?
  last : last = l.getLast?
  links : Segment next prev none l none
  nodup : l.Nodup

namespace Dlist

/-- Only the links of the cells of a list matter to it. -/
theorem congr (h : Dlist next prev first last l)
    (hl : ∀ x ∈ l, next' x = next x ∧ prev' x = prev x) : Dlist next' prev' first last l :=
  ⟨h.first, h.last, (segment_congr hl).mpr h.links, h.nodup⟩

theorem nil : Dlist next prev none none [] := ⟨rfl, rfl, trivial, List.nodup_nil⟩

theorem prev_eq {xs ys : List ι} (h : Dlist next prev first last (xs ++ x :: ys)) :
    prev x = xs.getLast? := by
  have := (segment_append.mp h.links).2.1
  rwa [Option.or_none] at this

theorem next_eq {xs ys : List ι} (h : Dlist next prev first last (xs ++ x :: ys)) :
    next x = ys.head? := by
  have := (segment_append.mp h.links).2.2.1
  rwa [Option.or_none] at this

theorem notMem {xs ys : List ι} (h : Dlist next prev first last (xs ++ x :: ys)) :
    x ∉ xs ++ ys := by
  obtain ⟨-, hys, hdisj⟩ := List.nodup_append.mp h.nodup
  intro hm
  obtain hm | hm := List.mem_append.mp hm
  · exact hdisj x hm x List.mem_cons_self rfl
  · exact (List.nodup_cons.mp hys).1 hm

theorem head?_ne {xs : List ι} (h : x ∉ xs) : xs.head? ≠ some x := fun heq =>
  h (List.mem_of_head? heq)

theorem getLast?_ne {xs : List ι} (h : x ∉ xs) : xs.getLast? ≠ some x := fun heq =>
  h (List.mem_of_getLast? heq)

theorem ne_of_mem {y : ι} (hx : x ∉ l) (hy : y ∈ l) : y ≠ x := fun heq => hx (heq ▸ hy)

variable [DecidableEq ι]

/-- A segment whose last cell is linked to another cell after it. -/
theorem segment_setAt_next {xs : List ι} (hnodup : xs.Nodup) (m : Option ι)
    (h : Segment next prev p xs n) : Segment (setAt next xs.getLast? m) prev p xs m := by
  induction xs generalizing p with
  | nil => trivial
  | cons x xs ih =>
    obtain ⟨hx, hxs⟩ := List.nodup_cons.mp hnodup
    obtain ⟨hp, hn, hseg⟩ := h
    cases xs with
    | nil => exact ⟨hp, by simp [setAt], trivial⟩
    | cons y ys =>
      rw [List.getLast?_cons_cons]
      refine ⟨hp, ?_, ih hxs hseg⟩
      rw [setAt_of_ne (getLast?_ne hx), hn]
      rfl

/-- A segment whose first cell is linked to another cell before it. -/
theorem segment_setAt_prev {xs : List ι} (hnodup : xs.Nodup) (m : Option ι)
    (h : Segment next prev p xs n) : Segment next (setAt prev xs.head? m) m xs n := by
  cases xs with
  | nil => trivial
  | cons x xs =>
    obtain ⟨hx, -⟩ := List.nodup_cons.mp hnodup
    obtain ⟨-, hn, hseg⟩ := h
    refine ⟨Function.update_self .., hn, (segment_congr fun y hy => ⟨rfl, ?_⟩).mpr hseg⟩
    refine setAt_of_ne fun heq => hx ?_
    obtain rfl : x = y := Option.some.inj heq
    exact hy

/-- Take a cell out, and clear its links. -/
theorem remove {xs ys : List ι} (h : Dlist next prev first last (xs ++ x :: ys)) :
    Dlist (Function.update (setAt next xs.getLast? ys.head?) x none)
      (Function.update (setAt prev ys.head? xs.getLast?) x none) (xs ++ ys).head?
      (xs ++ ys).getLast? (xs ++ ys) := by
  obtain ⟨hxs, hys⟩ := segment_append.mp h.links
  obtain ⟨hnx, hny, hdisj⟩ := List.nodup_append.mp h.nodup
  obtain ⟨hxy, hny⟩ := List.nodup_cons.mp hny
  have hxnot : x ∉ xs := fun hm => hdisj x hm x List.mem_cons_self rfl
  have hcross : ∀ y ∈ ys, y ∉ xs := fun y hy hm => hdisj y hm y (List.mem_cons_of_mem x hy) rfl
  rw [Option.or_none] at hys
  refine ⟨rfl, rfl, segment_append.mpr ⟨?_, ?_⟩, ?_⟩
  · rw [Option.or_none]
    refine (segment_congr fun y hy => ?_).mpr (segment_setAt_next hnx ys.head? hxs)
    have hne : y ≠ x := ne_of_mem hxnot hy
    refine ⟨Function.update_of_ne hne _ _, ?_⟩
    rw [Function.update_of_ne hne]
    exact setAt_of_ne (head?_ne fun hm => hcross y hm hy)
  · rw [Option.or_none]
    refine (segment_congr fun y hy => ?_).mpr (segment_setAt_prev hny xs.getLast? hys.2.2)
    have hne : y ≠ x := ne_of_mem hxy hy
    refine ⟨?_, Function.update_of_ne hne _ _⟩
    rw [Function.update_of_ne hne]
    exact setAt_of_ne (getLast?_ne (hcross y hy))
  · exact List.nodup_append.mpr ⟨hnx, hny, fun a ha b hb heq =>
      hcross b hb (heq ▸ ha)⟩

/-- Put a cell in front. -/
theorem pushFront (h : Dlist next prev first last l) (hx : x ∉ l) (hp : prev x = none) :
    Dlist (Function.update next x l.head?) (setAt prev l.head? (some x)) (some x)
      ((x :: l).getLast?) (x :: l) := by
  refine ⟨rfl, rfl, ⟨?_, ?_, ?_⟩, List.nodup_cons.mpr ⟨hx, h.nodup⟩⟩
  · rw [setAt_of_ne (head?_ne hx), hp]
  · rw [Function.update_self, Option.or_none]
  · refine (segment_congr fun y hy => ⟨?_, rfl⟩).mpr
      (segment_setAt_prev h.nodup (some x) h.links)
    exact Function.update_of_ne (ne_of_mem hx hy) _ _

/-- Put a cell behind the last one. -/
theorem pushBack (h : Dlist next prev first last l) (hx : x ∉ l) (hn : next x = none) :
    Dlist (setAt next l.getLast? (some x)) (Function.update prev x l.getLast?)
      ((l ++ [x]).head?) (some x) (l ++ [x]) := by
  refine ⟨rfl, by simp, segment_append.mpr ⟨?_, ?_, ?_, trivial⟩, ?_⟩
  · refine (segment_congr fun y hy => ⟨rfl, ?_⟩).mpr
      (segment_setAt_next h.nodup (some x) h.links)
    exact Function.update_of_ne (ne_of_mem hx hy) _ _
  · rw [Function.update_self, Option.or_none]
  · rw [setAt_of_ne (getLast?_ne hx), hn]
    rfl
  · refine List.nodup_append.mpr ⟨h.nodup, List.pairwise_singleton _ x, fun a ha b hb => ?_⟩
    rw [List.mem_singleton.mp hb]
    exact ne_of_mem hx ha

end Dlist

end Smos.Base
