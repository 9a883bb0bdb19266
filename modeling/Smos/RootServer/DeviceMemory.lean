/-
Smos.RootServer.DeviceMemory — device pages by their physical address.

`alloc_4k_device` looks at the `valid` flag of the table's entry only. It
answers a page of RAM, free or in use, as readily as one of device memory,
answers the same page any number of times, and computes with an address
below the table or past its end.
-/
import Smos.RootServer.Boot
import Smos.RootServer.UtTable

namespace Smos.RootServer

open Smos.Base

namespace UTTable

/-! ## Device pages -/

/-- The pages of device memory. -/
def DevicePage (t : UTTable) (ps : List UntypedPage) (index : Nat) : Prop :=
  t.Registered ps true index ∧ ¬ t.Registered ps false index

/-- The resources, and the pages that `alloc_4k_device` has handed out. -/
structure Handed where
  res : Res
  handed : List Nat

/-- A call of the untyped table. -/
inductive Call where
  | alloc4kUntyped
  | alloc (sizeBits : Nat)
  | free (ut : UT)
  | alloc4kDevice (paddr : Nat)

/-- The resources after a program, unless it panics. -/
def after {ε α : Type} : Outcome Panic Res ε α → Option Res
  | .ok _ r => some r
  | .err _ r => some r
  | .panic _ => none

def call (s : Handed) : Call → Option Handed
  | .alloc4kUntyped => (after (RootServer.alloc4kUntyped s.res)).map fun r => { s with res := r }
  | .alloc sizeBits => (after (utAlloc sizeBits s.res)).map fun r => { s with res := r }
  | .free ut =>
    (after ((utFree ut : RProg Sel4Error Unit) s.res)).map fun r => { s with res := r }
  | .alloc4kDevice paddr =>
    match RootServer.alloc4kDevice paddr s.res with
    | .ok _ r => some ⟨r, s.res.ut.pageOf paddr :: s.handed⟩
    | .err _ r => some { s with res := r }
    | .panic _ => none

/-- Booted from some ranges, and nothing handed out. -/
def Start (ranges : List UntypedRange) (s : Handed) : Prop :=
  Boots ranges s.res.ut ∧ s.handed = []

/-- What keeps device memory and RAM apart: no panic, and only a page that was registered as
device memory and has not been handed out is answered. -/
structure Proper (ps : List UntypedPage) (s : Handed) (paddr : Nat) : Prop where
  noPanic : ∀ p, RootServer.alloc4kDevice paddr s.res ≠ .panic p
  device : ∀ entry r, RootServer.alloc4kDevice paddr s.res = .ok entry r →
    s.res.ut.DevicePage ps (s.res.ut.pageOf paddr) ∧ s.res.ut.pageOf paddr ∉ s.handed

instance supports_table (u : List UTEntry) (p : Nat) :
    Supports fun r => r.ut.untypeds = u ∧ r.ut.firstPaddr = p where
  tables h _ ht hp _ := ⟨ht.trans h.1, hp.trans h.2⟩
  kernel _ := ⟨fun h _ => h, fun h _ => h, fun h _ => h, fun h _ => h, fun h _ _ => h⟩

theorem after_keeps {ε α : Type} {I : Res → Prop} {m : RProg ε α} {r r' : Res} (hm : ResProg I m)
    (hr : I r) (h : after (m r) = some r') : I r' := by
  cases hrun : m r with
  | ok a r₁ =>
    rw [hrun] at h
    cases h
    exact (hm.ok hr hrun).2
  | err e r₁ =>
    rw [hrun] at h
    cases h
    exact hm.err hr hrun
  | panic p =>
    rw [hrun] at h
    cases h

/-- `alloc_4k_device` only reads. -/
theorem alloc4kDevice_spec (paddr : Nat) (r : Res) :
    (RootServer.alloc4kDevice paddr).wp
      (fun entry r' => r' = r ∧ r.ut.firstPaddr ≤ paddr ∧
        r.ut.untypeds[r.ut.pageOf paddr]? = some entry ∧ entry.valid = true)
      (fun _ r' => r' = r ∧ r.ut.firstPaddr ≤ paddr ∧
        ∃ entry, r.ut.untypeds[r.ut.pageOf paddr]? = some entry ∧ entry.valid = false)
      (fun _ => r.ut.firstPaddr ≤ paddr → r.ut.untypeds.length ≤ r.ut.pageOf paddr) r := by
  simp only [RootServer.alloc4kDevice, Prog.wp_bind, Prog.wp_gets, wp_subU, Prog.wp_unwrap,
    Prog.wp_ite, Prog.wp_pure, Prog.wp_fail]
  refine ⟨fun hle => ⟨fun entry hentry => ⟨fun hv => ⟨trivial, hle, hentry, hv⟩, fun hv => ?_⟩,
    fun hnone _ => List.getElem?_eq_none_iff.mp hnone⟩, fun hlt hle => absurd hle hlt⟩
  exact ⟨trivial, hle, entry, hentry, by simpa using hv⟩

/-- The calls change neither the entries nor where the table starts. -/
theorem call_table {s s' : Handed} {a : Call} (h : call s a = some s') :
    s'.res.ut.untypeds = s.res.ut.untypeds ∧ s'.res.ut.firstPaddr = s.res.ut.firstPaddr := by
  have hmap : ∀ {ε α : Type} {m : RProg ε α},
      ResProg (fun r => r.ut.untypeds = s.res.ut.untypeds ∧ r.ut.firstPaddr = s.res.ut.firstPaddr)
        m →
      (after (m s.res)).map (fun r => { s with res := r }) = some s' →
        s'.res.ut.untypeds = s.res.ut.untypeds ∧ s'.res.ut.firstPaddr = s.res.ut.firstPaddr := by
    intro ε α m hm hs
    obtain ⟨r, hr, rfl⟩ := Option.map_eq_some_iff.mp hs
    exact after_keeps hm ⟨rfl, rfl⟩ hr
  cases a with
  | alloc4kUntyped => exact hmap alloc4kUntyped_keeps h
  | alloc sizeBits => exact hmap (utAlloc_keeps sizeBits) h
  | free ut =>
    have hfree : ResProg (fun r => r.ut.untypeds = s.res.ut.untypeds ∧
        r.ut.firstPaddr = s.res.ut.firstPaddr) (utFree ut : RProg Sel4Error Unit) := utFree_keeps ut
    exact hmap hfree h
  | alloc4kDevice paddr =>
    have hspec := alloc4kDevice_spec paddr s.res
    simp only [call] at h
    cases hrun : RootServer.alloc4kDevice paddr s.res with
    | ok entry r =>
      rw [hrun] at h
      cases h
      rw [(Prog.wp_ok hspec hrun).1]
      exact ⟨rfl, rfl⟩
    | err e r =>
      rw [hrun] at h
      cases h
      rw [(Prog.wp_err hspec hrun).1]
      exact ⟨rfl, rfl⟩
    | panic p =>
      rw [hrun] at h
      cases h

theorem run_describes {ranges : List UntypedRange} {ops : List Call} {s : Handed}
    (run : Run (Start ranges) call (fun _ _ => True) ops s) : s.res.ut.Describes (pages ranges) :=
  run.invariant (I := fun s => s.res.ut.Describes (pages ranges)) (fun _ h => h.1.describes)
    fun _ _ _ h _ hcall => h.congr (call_table hcall).1 (call_table hcall).2

/-- In every state of every run, device memory is told from RAM exactly for the addresses of
device pages that have not been handed out, and for those of table entries that nothing was
registered for. -/
theorem alloc4kDevice_iff {ranges : List UntypedRange} {ops : List Call} {s : Handed}
    (run : Run (Start ranges) call (fun _ _ => True) ops s) (paddr : Nat) :
    Proper (pages ranges) s paddr ↔
      s.res.ut.firstPaddr ≤ paddr ∧
        (s.res.ut.DevicePage (pages ranges) (s.res.ut.pageOf paddr) ∧
            s.res.ut.pageOf paddr ∉ s.handed ∨
          s.res.ut.pageOf paddr < s.res.ut.untypeds.length ∧
            ∀ device, ¬ s.res.ut.Registered (pages ranges) device (s.res.ut.pageOf paddr)) := by
  have hdesc := run_describes run
  have hspec := alloc4kDevice_spec paddr s.res
  constructor
  · intro h
    cases hrun : RootServer.alloc4kDevice paddr s.res with
    | ok entry r =>
      obtain ⟨-, hle, -, -⟩ := Prog.wp_ok hspec hrun
      exact ⟨hle, .inl (h.device entry r hrun)⟩
    | err e r =>
      obtain ⟨-, hle, entry, hentry, hv⟩ := Prog.wp_err hspec hrun
      have hnot := mt (hdesc.valid _ entry hentry).mpr (by simp [hv])
      exact ⟨hle, .inr ⟨(List.getElem?_eq_some_iff.mp hentry).1, fun device hreg =>
        hnot ⟨device, hreg⟩⟩⟩
    | panic p => exact absurd hrun (h.noPanic p)
  · rintro ⟨hle, hcase⟩
    have hlt : s.res.ut.pageOf paddr < s.res.ut.untypeds.length := by
      obtain ⟨⟨hreg, -⟩, -⟩ | ⟨hlt, -⟩ := hcase
      · exact hdesc.inTable _ _ hreg
      · exact hlt
    refine ⟨fun p hp => ?_, fun entry r hrun => ?_⟩
    · exact absurd (Prog.wp_panic_of hspec hp hle) (Nat.not_le.mpr hlt)
    · obtain ⟨-, -, hentry, hv⟩ := Prog.wp_ok hspec hrun
      obtain hdev | ⟨-, hnone⟩ := hcase
      · exact hdev
      · obtain ⟨device, hreg⟩ := (hdesc.valid _ entry hentry).mp hv
        exact absurd hreg (hnone device)

/-! ## A small table -/

/-- Two pages of RAM, a page that nobody registered, and a page of device memory. -/
def demoRanges : List UntypedRange :=
  [⟨0x40000000, 300, 2, false⟩, ⟨0x40003000, 302, 1, true⟩]

/-- The table of the four pages. -/
def demoTable : UTTable where
  firstPaddr := 0x40000000
  untypeds := [⟨300, true⟩, ⟨301, true⟩, ⟨0, false⟩, ⟨302, true⟩]
  freeUntypeds := Function.update (Function.update (fun _ => []) 12 [⟨utNode 0, 300, 12⟩]) 12
    [⟨utNode 1, 301, 12⟩, ⟨utNode 0, 300, 12⟩]
  freeStructures := []
  nextFreeVaddr := 0x8000001000

theorem demoTable_boots : Boots demoRanges demoTable :=
  ⟨0x40000000, 4, 0x8000001000, rfl⟩

def demoHanded : Handed := ⟨{ demo.res with ut := demoTable }, []⟩

theorem demoHanded_start : Start demoRanges demoHanded := ⟨demoTable_boots, rfl⟩

/-- One page of RAM is taken; the device page is told from RAM. -/
theorem alloc4kDevice_iff_demo : ∃ s, Run (Start demoRanges) call (fun _ _ => True)
    [.alloc4kUntyped] s ∧ Proper (pages demoRanges) s 0x40003000 := by
  have start : Run (Start demoRanges) call (fun _ _ => True) [] demoHanded := .init demoHanded_start
  have run := start.step (a := .alloc4kUntyped) trivial rfl
  refine ⟨_, run, (alloc4kDevice_iff run _).mpr ⟨by decide, .inl ⟨⟨?_, ?_⟩, by decide⟩⟩⟩
  · exact ⟨⟨0x40003000, 302, true⟩, by decide, rfl, by decide, by decide⟩
  · intro ⟨page, hpage, hram, _, hindex⟩
    have hall : ∀ page ∈ pages demoRanges, page.device = false →
        demoTable.pageOf page.paddr ≠ 3 := by
      decide
    exact hall page hpage hram hindex

/-- The first page of RAM is handed out by its address, and so is the device page twice. Below
the table there is a panic. -/
theorem alloc4kDevice_not_iff :
    (∃ entry r, RootServer.alloc4kDevice 0x40000000 demoHanded.res = .ok entry r ∧
      demoHanded.res.ut.Registered (pages demoRanges) false
        (demoHanded.res.ut.pageOf 0x40000000)) ∧
    (∃ s, Run (Start demoRanges) call (fun _ _ => True) [.alloc4kDevice 0x40003000] s ∧
      ∃ entry r, RootServer.alloc4kDevice 0x40003000 s.res = .ok entry r ∧
        s.res.ut.pageOf 0x40003000 ∈ s.handed) ∧
    RootServer.alloc4kDevice 4096 demoHanded.res = .panic .arithmeticOverflow := by
  refine ⟨⟨_, _, rfl, ⟨0x40000000, 300, false⟩, by decide, rfl, by decide, by decide⟩, ?_, rfl⟩
  have start : Run (Start demoRanges) call (fun _ _ => True) [] demoHanded := .init demoHanded_start
  have run := start.step (a := .alloc4kDevice 0x40003000) trivial rfl
  exact ⟨_, run, _, _, rfl, by decide⟩

end UTTable

end Smos.RootServer
