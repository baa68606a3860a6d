import Honyar.Lib.SplitClock
import Honyar.Sessions.Repeater
import Mathlib.Algebra.Group.Int.Defs

/-!
# Intervals between two times

`data_repeater_manage` asks whether the time of a message is out, and `session_sys_exec` whether
the spacing of a session has passed.  Both compare the seconds and the milliseconds of a
`base_timeval_t` by themselves.
-/

namespace Honyar.Sessions

/-- A time in milliseconds. -/
def Timeval.millis (t : Timeval) : Nat := SplitClock.millis t.uiSec t.uiMsec

/-- What `base_time_get` gives at a number of milliseconds. -/
def Timeval.ofMillis (t : Nat) : Timeval := ⟨SplitClock.seconds t, SplitClock.remainder t⟩

/-- The spacing of a session has passed; all of it is `unsigned int`. -/
def spacingOver (iDataSpacing : Int) (stNew stTimestamp : Timeval) : Bool :=
  let uiSec := UInt32.ofInt (iDataSpacing.tdiv 1000)
  let uiMsec := UInt32.ofInt (iDataSpacing.tmod 1000)
  decide (uiSec < stNew.uiSec - stTimestamp.uiSec) ||
    (decide (stNew.uiSec - stTimestamp.uiSec = uiSec) &&
      decide (uiMsec ≤ stNew.uiMsec - stTimestamp.uiMsec))

/-- No second is missing where an interval is compared. -/
def Timeval.Unborrowed (d : Int) (stNow stThen : Timeval) : Prop :=
  SplitClock.Unborrowed (d / 1000).toNat (d % 1000).toNat stNow.uiSec stNow.uiMsec stThen.uiSec
    stThen.uiMsec

variable {d : Int} {stNow stThen : Timeval}

theorem timedOut_eq (d : Int) (stNow stThen : Timeval) :
    timedOut d stNow stThen = SplitClock.passed (d / 1000).toNat (d % 1000).toNat
      (stNow.uiSec - stThen.uiSec) (stNow.uiMsec - stThen.uiMsec) := rfl

theorem spacingOver_eq (hd : 0 ≤ d) (hint : d < 2 ^ 31) (stNow stThen : Timeval) :
    spacingOver d stNow stThen = timedOut d stNow stThen := by
  have hsec : (UInt32.ofInt (d.tdiv 1000)).toNat = (d / 1000).toNat := by
    rw [Int.tdiv_eq_ediv_of_nonneg hd, UInt32.ofInt, UInt32.toNat_ofNat']
    omega
  have hmsec : (UInt32.ofInt (d.tmod 1000)).toNat = (d % 1000).toNat := by
    rw [Int.tmod_eq_emod_of_nonneg hd, UInt32.ofInt, UInt32.toNat_ofNat']
    omega
  rw [Bool.eq_iff_iff, timedOut_eq, SplitClock.passed_eq_true_iff, spacingOver, Bool.or_eq_true,
    Bool.and_eq_true, decide_eq_true_iff, decide_eq_true_iff, decide_eq_true_iff,
    UInt32.lt_iff_toNat_lt, UInt32.le_iff_toNat_le, ← UInt32.toNat_inj, hsec, hmsec]

theorem timedOut_exact_iff (hnow : stNow.uiMsec.toNat < 1000) (hthen : stThen.uiMsec.toNat < 1000)
    (hle : stThen.millis ≤ stNow.millis) (hd : 0 ≤ d) :
    (timedOut d stNow stThen = true ↔ (stThen.millis : Int) + d ≤ stNow.millis) ↔
      Timeval.Unborrowed d stNow stThen := by
  have hparts : (stThen.millis : Int) + d ≤ stNow.millis ↔
      stThen.millis + (1000 * (d / 1000).toNat + (d % 1000).toNat) ≤ stNow.millis := by omega
  rw [timedOut_eq, hparts]
  exact SplitClock.passed_exact_iff hnow hthen (by omega) hle

/-! ## The tests -/

/-- Both tests succeed for an interval exactly when it has passed, if no second is missing, and
only then. -/
theorem interval_exact_iff (stNow stThen : Timeval) (d : Int) (hnow : stNow.uiMsec.toNat < 1000)
    (hthen : stThen.uiMsec.toNat < 1000) (hle : stThen.millis ≤ stNow.millis) (hd : 0 ≤ d)
    (hint : d < 2 ^ 31) :
    ((timedOut d stNow stThen = true ↔ (stThen.millis : Int) + d ≤ stNow.millis) ↔
        Timeval.Unborrowed d stNow stThen) ∧
      ((spacingOver d stNow stThen = true ↔ (stThen.millis : Int) + d ≤ stNow.millis) ↔
        Timeval.Unborrowed d stNow stThen) := by
  rw [spacingOver_eq hd hint]
  exact ⟨timedOut_exact_iff hnow hthen hle hd, timedOut_exact_iff hnow hthen hle hd⟩

/-- An interval that ends before the second does. -/
theorem interval_exact_sample :
    timedOut 1500 ⟨7, 600⟩ ⟨6, 100⟩ = true ∧ spacingOver 1500 ⟨7, 600⟩ ⟨6, 100⟩ = true := by
  have h := interval_exact_iff ⟨7, 600⟩ ⟨6, 100⟩ 1500 (by decide) (by decide) (by decide)
    (by decide)
    (by decide)
  exact ⟨(h.1.mpr (Or.inl (by decide))).mpr (by decide),
    (h.2.mpr (Or.inl (by decide))).mpr (by decide)⟩

/-- Two hundred milliseconds pass for a second when the milliseconds begin again. -/
theorem interval_not_exact :
    (⟨4, 900⟩ : Timeval).millis ≤ (⟨5, 100⟩ : Timeval).millis ∧
      timedOut 1000 ⟨5, 100⟩ ⟨4, 900⟩ = true ∧ spacingOver 1000 ⟨5, 100⟩ ⟨4, 900⟩ = true ∧
      ¬ ((⟨4, 900⟩ : Timeval).millis : Int) + 1000 ≤ (⟨5, 100⟩ : Timeval).millis := by
  decide

end Honyar.Sessions
