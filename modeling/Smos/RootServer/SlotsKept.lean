/-
Smos.RootServer.SlotsKept — capabilities that stay in their slots.

Faults and `PageMap` fill new slots and map what is in old ones, and give one
object back, the reply object of the fault they answer. `SlotsKept D r r'` says
that every slot in use, but for those in `D`, stays in use and keeps its
capability, up to where a frame is mapped. It composes, and each effect that
only makes and maps moves along it.
-/
import Smos.RootServer.TurnSpecs

namespace Smos.RootServer

open Smos.Base

/-- A capability without the place a frame is mapped at. -/
def Cap.unmapped : Cap → Cap
  | .frame obj orig access _ => .frame obj orig access none
  | cap => cap

/-- The slots in use outside of `D` stay in use, and keep what is in them. -/
structure SlotsKept (D : Slot → Prop) (r r' : Res) : Prop where
  allocated : ∀ c, ¬ D c → r.cspace.Allocated c → r'.cspace.Allocated c
  caps : ∀ c, ¬ D c → r.cspace.Allocated c →
    (r'.kernel.caps c).map Cap.unmapped = (r.kernel.caps c).map Cap.unmapped

/-- The slot is in use and holds a capability of the frame. -/
def Res.Holds (r : Res) (c : Slot) (obj : Nat) : Prop :=
  r.cspace.Allocated c ∧ ∃ orig access m, r.kernel.caps c = some (.frame obj orig access m)

/-- The slot is in use and holds a capability of something that is not memory. -/
def Res.HoldsObject (r : Res) (c : Slot) : Prop :=
  r.cspace.Allocated c ∧ ∃ obj kind, r.kernel.caps c = some (.object obj kind)

namespace SlotsKept

variable {D : Slot → Prop} {r r₁ r₂ r' : Res} {c : Slot}

protected theorem refl (D : Slot → Prop) (r : Res) : SlotsKept D r r :=
  ⟨fun _ _ h => h, fun _ _ _ => rfl⟩

protected theorem trans (h : SlotsKept D r r₁) (h' : SlotsKept D r₁ r₂) : SlotsKept D r r₂ where
  allocated c hD hc := h'.allocated c hD (h.allocated c hD hc)
  caps c hD hc := (h'.caps c hD (h.allocated c hD hc)).trans (h.caps c hD hc)

theorem mono {D' : Slot → Prop} (h : SlotsKept D r r') (hD : ∀ c, D c → D' c) :
    SlotsKept D' r r' where
  allocated c hc := h.allocated c fun hd => hc (hD c hd)
  caps c hc := h.caps c fun hd => hc (hD c hd)

theorem of_grow (h : Grow r r') : SlotsKept D r r' where
  allocated c _ := h.allocated c
  caps c _ hc := by rw [h.caps c hc]

/-- Only the capabilities and the slots in use matter. -/
theorem of_caps (hk : r'.kernel.caps = r.kernel.caps) (hc : r'.cspace = r.cspace) :
    SlotsKept D r r' where
  allocated c _ hc' := by rwa [hc]
  caps c _ _ := by rw [hk]

/-! ## Effects -/

theorem of_copy {slot src : Slot} {cs : CSpace} {k : Kernel} {rights : CapRights}
    (hfresh : ¬ r.cspace.Allocated slot)
    (hcs : ∀ c, cs.Allocated c ↔ r.cspace.Allocated c ∨ c = slot)
    (hcopy : r.kernel.copy slot src rights = .ok k) :
    SlotsKept D r { r with cspace := cs, kernel := k } where
  allocated c _ hc := (hcs c).mpr (.inl hc)
  caps c _ hc := by
    obtain ⟨_, _, -, -, rfl, -⟩ := Kernel.copy_ok hcopy
    have hne : c ≠ slot := by
      rintro rfl
      exact hfresh hc
    show ((r.kernel.setCap slot _).caps c).map _ = _
    rw [Kernel.setCap_caps_of_ne hne]

theorem of_mapsFrom {vspace : Slot} {vaddr : Nat} {rights : CapRights}
    (h : MapsFrom r c vspace vaddr rights r') : SlotsKept D r r' := by
  obtain ⟨r₁, k, hq, hmap, rfl⟩ := h
  refine (of_grow hq.grow).trans ⟨fun _ _ hc => hc, fun c' _ _ => ?_⟩
  obtain ⟨obj, orig, access, m, vs, hcap, -, -, -, rfl⟩ := Kernel.frameMap_ok hmap
  show ((r₁.kernel.enterPage c obj orig access vs vaddr rights).caps c').map _ = _
  rw [Kernel.enterPage_caps]
  by_cases hc : c' = c
  · subst hc
    rw [Function.update_self, hcap]
    rfl
  · rw [Function.update_of_ne hc]

theorem of_deallocated {x : Alloc} (h : Deallocated x r r') (hx : D x.1) : SlotsKept D r r' := by
  obtain ⟨r₁, hf, heq⟩ := h.freed
  have hne : ∀ c, ¬ D c → c ≠ x.1 := by
    rintro c hD rfl
    exact hD hx
  constructor
  · intro c hD hc
    rw [heq]
    exact (hf.others c (hne c hD)).mpr hc
  · intro c hD _
    rw [heq, hf.eq]
    show ((r.kernel.delete x.1).caps c).map _ = _
    rw [Kernel.delete_caps_of_ne (hne c hD)]

/-! ## What a slot holds -/

theorem holds {obj : Nat} (h : SlotsKept D r r') (hD : ¬ D c) (hc : r.Holds c obj) :
    r'.Holds c obj := by
  obtain ⟨hall, orig, access, m, hcap⟩ := hc
  have hkept := h.caps c hD hall
  rw [hcap] at hkept
  obtain ⟨cap, hcap', heq⟩ := Option.map_eq_some_iff.mp hkept
  cases cap with
  | frame obj' orig' access' m' =>
    cases heq
    exact ⟨h.allocated c hD hall, _, _, _, hcap'⟩
  | _ => cases heq

theorem holdsObject (h : SlotsKept D r r') (hD : ¬ D c) (hc : r.HoldsObject c) :
    r'.HoldsObject c := by
  obtain ⟨hall, obj, kind, hcap⟩ := hc
  have hkept := h.caps c hD hall
  rw [hcap] at hkept
  obtain ⟨cap, hcap', heq⟩ := Option.map_eq_some_iff.mp hkept
  cases cap with
  | object obj' kind' =>
    cases heq
    exact ⟨h.allocated c hD hall, _, _, hcap'⟩
  | _ => cases heq

theorem holdsVspace {vs : VSpaceId} (h : SlotsKept D r r') (hD : ¬ D c)
    (hall : r.cspace.Allocated c) (hcap : r.kernel.caps c = some (.vspace vs)) :
    r'.kernel.caps c = some (.vspace vs) := by
  have hkept := h.caps c hD hall
  rw [hcap] at hkept
  obtain ⟨cap, hcap', heq⟩ := Option.map_eq_some_iff.mp hkept
  cases cap with
  | vspace vs' =>
    cases heq
    exact hcap'
  | _ => cases heq

/-- A slot that holds no object does not come to hold one. -/
theorem not_object (h : SlotsKept D r r') (hD : ¬ D c) (hall : r.cspace.Allocated c)
    (hno : ¬ r.HoldsObject c) : ¬ r'.HoldsObject c := by
  intro hobject
  obtain ⟨-, obj, kind, hcap⟩ := hobject
  have hkept := h.caps c hD hall
  rw [hcap] at hkept
  obtain ⟨cap, hcap', heq⟩ := Option.map_eq_some_iff.mp hkept.symm
  cases cap with
  | object obj' kind' => exact hno ⟨hall, obj', kind', hcap'⟩
  | _ => cases heq

/-- Only objects are given back, in both parts. -/
theorem trans_objects (h : SlotsKept r.HoldsObject r r₁) (h' : SlotsKept r₁.HoldsObject r₁ r₂) :
    SlotsKept r.HoldsObject r r₂ where
  allocated c hno hc := h'.allocated c (h.not_object hno hc hno) (h.allocated c hno hc)
  caps c hno hc :=
    (h'.caps c (h.not_object hno hc hno) (h.allocated c hno hc)).trans (h.caps c hno hc)

end SlotsKept

namespace Res

variable {r : Res} {c slot src : Slot}

theorem Holds.ne_of_object {obj : Nat} (h : r.Holds c obj) {c' : Slot} (h' : r.HoldsObject c') :
    c ≠ c' := by
  rintro rfl
  obtain ⟨-, orig, access, m, hcap⟩ := h
  obtain ⟨-, obj', kind, hcap'⟩ := h'
  rw [hcap] at hcap'
  cases hcap'

/-- The copy of a frame's capability is a capability of that frame. -/
theorem Holds.copy {obj : Nat} {cs : CSpace} {k : Kernel} {rights : CapRights}
    (h : r.Holds src obj) (hcs : ∀ c, cs.Allocated c ↔ r.cspace.Allocated c ∨ c = slot)
    (hcopy : r.kernel.copy slot src rights = .ok k) :
    ({ r with cspace := cs, kernel := k } : Res).Holds slot obj := by
  obtain ⟨-, orig, access, m, hsrc⟩ := h
  obtain ⟨cap, cap', hcap, -, rfl, hkind⟩ := Kernel.copy_ok hcopy
  cases hsrc.symm.trans hcap
  refine ⟨(hcs slot).mpr (.inr rfl), ?_⟩
  rcases hkind with ⟨obj', orig', access', m', heq, rfl⟩ | ⟨hno, -⟩
  · cases heq
    exact ⟨false, access.mask rights, none, Kernel.setCap_caps_self ..⟩
  · exact absurd rfl (hno obj orig access m)

end Res

end Smos.RootServer
