/-
Smos.RootServer.ClockArm — time from the counter of the ARM generic timer.

The registers count cycles; the root server thinks in nanoseconds. Both
conversions multiply before they divide, and machine multiplication panics
where the product does not fit. The unit that a frequency is a multiple of
selects the formula.

The test for kilohertz multiplies where it means to take a remainder. The
product of a positive frequency is never zero, so the branch behind it is
never taken.
-/
import Smos.Base.Prog
import Smos.RootServer.Basic

namespace Smos.RootServer.ClockArm

open Smos.Base

/-! ## The code -/

/-- The registers. -/
structure TimerRegisters where
  cntpCtl : Nat
  cntpCval : Nat
  cntpct : Nat
  cntfrq : Nat

/-- Where the arithmetic panics. -/
inductive ArithPanic where
  | multiplyOverflow
  | divideByZero
  | tryFromInt
  deriving DecidableEq, Repr

abbrev ClockProg (α : Type) := Prog ArithPanic TimerRegisters Empty α

def mulU (a b : Nat) : ClockProg Nat :=
  if a * b < usizeBound then pure (a * b) else Prog.panic .multiplyOverflow

def divU (a b : Nat) : ClockProg Nat :=
  if b = 0 then Prog.panic .divideByZero else pure (a / b)

def hz : Nat := 1

def khz : Nat := 1000 * hz

def mhz : Nat := 1000 * khz

def ghz : Nat := 1000 * mhz

def msInS : Nat := 1000

def usInMs : Nat := 1000

def usInS : Nat := usInMs * msInS

def nsInS : Nat := 1000000000

/-- `cycles_and_freq_to_ns`. -/
def cyclesAndFreqToNs (cycles freq : Nat) : ClockProg Nat := do
  if freq % ghz = 0 then
    divU (← divU cycles freq) ghz
  else if freq % mhz = 0 then
    divU (← mulU cycles msInS) (← divU freq mhz)
  else if (← mulU freq khz) = 0 then
    divU (← mulU cycles usInS) (← divU freq khz)
  else
    -- in `u128`, where it fits
    let res := cycles * nsInS
    let ns ← divU res freq
    if ns < usizeBound then pure ns else Prog.panic .tryFromInt

/-- `ns_and_freq_to_cycles`. -/
def nsAndFreqToCycles (ns freq : Nat) : ClockProg Nat := do
  divU (← mulU ns freq) nsInS

/-- `timer_get_freq`. -/
def timerGetFreq : ClockProg Nat := Prog.gets TimerRegisters.cntfrq

/-- `get_ticks`. -/
def getTicks : ClockProg Nat := Prog.gets TimerRegisters.cntpct

/-- `timer_set_compare`. -/
def timerSetCompare (ticks : Nat) : ClockProg Unit :=
  Prog.modify fun t => { t with cntpCval := ticks }

/-- `get_time`. -/
def getTime : ClockProg Nat := do
  let currTicks ← getTicks
  cyclesAndFreqToNs currTicks (← timerGetFreq)

/-- `configure_timeout_at`. -/
def configureTimeoutAt (_currTime deadline : Nat) : ClockProg Unit := do
  timerSetCompare (← nsAndFreqToCycles deadline (← timerGetFreq))

/-! ## Exact results -/

/-- The conversion to nanoseconds is exact wherever the result fits. -/
def ToNsExact (cycles freq : Nat) : Prop :=
  cycles * nsInS / freq < usizeBound →
    ∀ t, cyclesAndFreqToNs cycles freq t = .ok (cycles * nsInS / freq) t

/-- The conversion to cycles is exact wherever the result fits. -/
def ToCyclesExact (ns freq : Nat) : Prop :=
  ns * freq / nsInS < usizeBound → ∀ t, nsAndFreqToCycles ns freq t = .ok (ns * freq / nsInS) t

/-- What the branch that the frequency selects can convert to nanoseconds. -/
def NsBranch (cycles freq : Nat) : Prop :=
  if ghz ∣ freq then cycles * nsInS < freq
  else if mhz ∣ freq then cycles * msInS < usizeBound
  else freq * khz < usizeBound

instance (cycles freq : Nat) : Decidable (NsBranch cycles freq) := by
  unfold NsBranch
  infer_instance

section Conversion

variable {a b cycles freq ns : Nat} {t : TimerRegisters}

theorem mulU_ok (h : a * b < usizeBound) : mulU a b t = .ok (a * b) t := by
  unfold mulU
  rw [if_pos h]
  rfl

theorem mulU_panic (h : ¬ a * b < usizeBound) : mulU a b t = .panic .multiplyOverflow := by
  unfold mulU
  rw [if_neg h]
  rfl

theorem divU_ok (h : b ≠ 0) : divU a b t = .ok (a / b) t := by
  unfold divU
  rw [if_neg h]
  rfl

/-- A multiple of a gigahertz is divided by once too often. -/
theorem toNs_ghz (h : ghz ∣ freq) (hfreq : 0 < freq) :
    cyclesAndFreqToNs cycles freq t = .ok (cycles / freq / ghz) t := by
  unfold cyclesAndFreqToNs
  rw [if_pos (Nat.mod_eq_zero_of_dvd h)]
  refine (Prog.bind_of_ok (divU_ok (Nat.ne_of_gt hfreq))).trans (divU_ok ?_)
  decide

theorem ghz_exact_iff (hfreq : 0 < freq) :
    cycles / freq / ghz = cycles * nsInS / freq ↔ cycles * nsInS < freq := by
  have hwhole : cycles / freq * nsInS ≤ cycles * nsInS / freq := by
    rw [Nat.le_div_iff_mul_le hfreq, Nat.mul_right_comm]
    exact Nat.mul_le_mul_right _ (Nat.div_mul_le_self cycles freq)
  have hghz : ghz = 1000000000 := rfl
  have hns : nsInS = 1000000000 := rfl
  constructor
  · intro heq
    by_contra hge
    have hpos : 0 < cycles * nsInS / freq := Nat.div_pos (Nat.le_of_not_lt hge) hfreq
    rw [← heq] at hwhole hpos
    rw [hghz, hns] at hwhole
    rw [hghz] at hpos
    omega
  · intro hlt
    have hcycles : cycles < freq := by
      rw [hns] at hlt
      omega
    rw [Nat.div_eq_of_lt hlt, Nat.div_eq_of_lt hcycles, Nat.zero_div]

/-- Megahertz cancel. -/
theorem mhz_exact (h : mhz ∣ freq) (hfreq : 0 < freq) :
    cycles * msInS / (freq / mhz) = cycles * nsInS / freq := by
  obtain ⟨k, rfl⟩ := h
  have hmhz : 0 < mhz := by decide
  have hns : nsInS = mhz * msInS := rfl
  rw [Nat.mul_div_cancel_left k hmhz, hns, Nat.mul_left_comm, Nat.mul_div_mul_left _ _ hmhz]

theorem toNs_mhz (hghz : ¬ ghz ∣ freq) (h : mhz ∣ freq) (hfreq : 0 < freq) :
    cyclesAndFreqToNs cycles freq t = .ok (cycles * nsInS / freq) t ↔
      cycles * msInS < usizeBound := by
  have hno : ¬ freq % ghz = 0 := fun hmod => hghz (Nat.dvd_of_mod_eq_zero hmod)
  have hquot : freq / mhz ≠ 0 :=
    Nat.ne_of_gt (Nat.div_pos (Nat.le_of_dvd hfreq h) (by decide))
  have hmhz : mhz ≠ 0 := by decide
  unfold cyclesAndFreqToNs
  rw [if_neg hno, if_pos (Nat.mod_eq_zero_of_dvd h)]
  by_cases hfit : cycles * msInS < usizeBound
  · refine iff_of_true ((Prog.bind_of_ok (mulU_ok hfit)).trans ?_) hfit
    refine (Prog.bind_of_ok (divU_ok hmhz)).trans ((divU_ok hquot).trans ?_)
    rw [mhz_exact h hfreq]
  · refine iff_of_false (fun heq => ?_) hfit
    have hpanic := (Prog.bind_of_panic (mulU_panic hfit)).symm.trans heq
    cases hpanic

theorem toNs_other (hmhz : ¬ mhz ∣ freq) (hfreq : 0 < freq)
    (hfit : cycles * nsInS / freq < usizeBound) :
    cyclesAndFreqToNs cycles freq t = .ok (cycles * nsInS / freq) t ↔ freq * khz < usizeBound := by
  have hno : ¬ freq % mhz = 0 := fun hmod => hmhz (Nat.dvd_of_mod_eq_zero hmod)
  have hno' : ¬ freq % ghz = 0 := fun hmod =>
    hmhz (Nat.dvd_trans (Nat.dvd_mul_left mhz 1000) (Nat.dvd_of_mod_eq_zero hmod))
  unfold cyclesAndFreqToNs
  rw [if_neg hno', if_neg hno]
  by_cases hkhz : freq * khz < usizeBound
  · refine iff_of_true ((Prog.bind_of_ok (mulU_ok hkhz)).trans ?_) hkhz
    have hkhzPos : 0 < khz := by decide
    have hpos : ¬ freq * khz = 0 := Nat.ne_of_gt (Nat.mul_pos hfreq hkhzPos)
    rw [if_neg hpos]
    refine (Prog.bind_of_ok (divU_ok (Nat.ne_of_gt hfreq))).trans ?_
    rw [if_pos hfit]
    rfl
  · refine iff_of_false (fun heq => ?_) hkhz
    have hpanic := (Prog.bind_of_panic (mulU_panic hkhz)).symm.trans heq
    cases hpanic

theorem toNs_iff (hfreq : 0 < freq) (hfit : cycles * nsInS / freq < usizeBound) :
    cyclesAndFreqToNs cycles freq t = .ok (cycles * nsInS / freq) t ↔ NsBranch cycles freq := by
  unfold NsBranch
  by_cases hghz : ghz ∣ freq
  · rw [if_pos hghz, ← ghz_exact_iff hfreq, toNs_ghz hghz hfreq]
    simp
  · rw [if_neg hghz]
    by_cases hmhz : mhz ∣ freq
    · rw [if_pos hmhz]
      exact toNs_mhz hghz hmhz hfreq
    · rw [if_neg hmhz]
      exact toNs_other hmhz hfreq hfit

theorem toCycles_iff : nsAndFreqToCycles ns freq t = .ok (ns * freq / nsInS) t ↔
    ns * freq < usizeBound := by
  by_cases hfit : ns * freq < usizeBound
  · refine iff_of_true ((Prog.bind_of_ok (mulU_ok hfit)).trans (divU_ok ?_)) hfit
    decide
  · refine iff_of_false (fun heq => ?_) hfit
    have hpanic := (Prog.bind_of_panic (mulU_panic hfit)).symm.trans heq
    cases hpanic

/-- Where both conversions are exact: in the branch of the frequency, and below the bound of the
product. -/
theorem conversions_exact_iff (cycles ns : Nat) (hfreq : 0 < freq) :
    (ToNsExact cycles freq ↔ (cycles * nsInS / freq < usizeBound → NsBranch cycles freq)) ∧
      (ToCyclesExact ns freq ↔ (ns * freq / nsInS < usizeBound → ns * freq < usizeBound)) := by
  constructor
  · exact forall_congr' fun hfit =>
      ⟨fun h => (toNs_iff hfreq hfit).mp (h ⟨0, 0, 0, 0⟩), fun h _ => (toNs_iff hfreq hfit).mpr h⟩
  · exact forall_congr' fun _ => ⟨fun h => toCycles_iff.mp (h ⟨0, 0, 0, 0⟩), fun h _ =>
      toCycles_iff.mpr h⟩

/-- A counter of 24 MHz after an hour, and a timeout 10 minutes after the start. -/
theorem conversions_exact_demo :
    ToNsExact 86400000000 24000000 ∧ ToCyclesExact 600000000000 24000000 := by
  have hfreq : 0 < 24000000 := by decide
  obtain ⟨hns, hcycles⟩ := conversions_exact_iff 86400000000 600000000000 hfreq
  exact ⟨hns.mpr fun _ => by decide, hcycles.mpr fun _ => by decide⟩

/-- A second of a counter of one gigahertz is no time at all, a counter of 24 MHz panics after 24
years, and its comparator is not set 13 minutes after the start. -/
theorem conversions_exact_not : ¬ ToNsExact 1000000000 1000000000 ∧
    ¬ ToNsExact 18446744073709552 24000000 ∧ ¬ ToCyclesExact 780000000000 24000000 := by
  refine ⟨fun h => ?_, fun h => ?_, fun h => ?_⟩
  · have hns := (toNs_iff (by decide) (by decide)).mp (h (by decide) ⟨0, 0, 0, 0⟩)
    exact absurd hns (by decide)
  · have hns := (toNs_iff (by decide) (by decide)).mp (h (by decide) ⟨0, 0, 0, 0⟩)
    exact absurd hns (by decide)
  · have hcycles := toCycles_iff.mp (h (by decide) ⟨0, 0, 0, 0⟩)
    exact absurd hcycles (by decide)

/-- The comparator is set to the exact cycle where the product fits. -/
theorem configureTimeoutAt_ok {currTime deadline : Nat} (h : deadline * t.cntfrq < usizeBound) :
    configureTimeoutAt currTime deadline t =
      .ok () { t with cntpCval := deadline * t.cntfrq / nsInS } := by
  unfold configureTimeoutAt timerGetFreq
  rw [Prog.gets_bind]
  exact (Prog.bind_of_ok (toCycles_iff.mpr h)).trans rfl

end Conversion

end Smos.RootServer.ClockArm
