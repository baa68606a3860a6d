import Mathlib.Algebra.Group.Int.Defs
import Mathlib.Tactic.Common

/-!
# Deadlines

A pop with a timeout adds its seconds to those of the clock and its milliseconds to those of the
clock; the semaphore makes nanoseconds of the milliseconds and microseconds.  Neither carries a
full thousand of milliseconds over to the seconds.
-/

namespace Honyar.MsgQueue

/-- `base_timeval_t`. -/
structure Timeval where
  uiSec : UInt32
  uiMsec : UInt32
  uiUsec : UInt32

/-- `struct timespec`; its seconds hold every `unsigned int`. -/
structure Timespec where
  tv_sec : Int
  tv_nsec : Int
deriving DecidableEq

/-- What is asked of a semaphore. -/
inductive SemCall where
  | wait
  | trywait
  | timedwait (ts : Timespec)
deriving DecidableEq

/-- `base_time_get`, of what `gettimeofday` tells. -/
def baseTimeGet (tv_sec tv_usec : Nat) : Timeval :=
  ⟨.ofNat tv_sec, .ofNat (tv_usec / 1000), .ofNat (tv_usec % 1000)⟩

/-- `base_sem_timedwait`. -/
def baseSemTimedwait (pstTimeout : Timeval) : SemCall :=
  .timedwait ⟨pstTimeout.uiSec.toNat,
    (pstTimeout.uiMsec * 1000000 + pstTimeout.uiUsec * 1000).toNat⟩

/-- `msg_sem_wait`; `now` is what the clock tells. -/
def msgSemWait (now : Timeval) (iTimeOut : Int) : SemCall :=
  if iTimeOut = -1 then .wait
  else if iTimeOut = 0 then .trywait
  else
    baseSemTimedwait
      { now with
        uiSec := now.uiSec + .ofInt (iTimeOut.tdiv 1000)
        uiMsec := now.uiMsec + .ofInt (iTimeOut.tmod 1000) }

/-- The time of a clock, in nanoseconds. -/
def Timeval.nanos (t : Timeval) : Int :=
  t.uiSec.toNat * 1000000000 + t.uiMsec.toNat * 1000000 + t.uiUsec.toNat * 1000

/-- Its milliseconds and microseconds are less than a thousand. -/
def Timeval.Normal (t : Timeval) : Prop := t.uiMsec.toNat < 1000 ∧ t.uiUsec.toNat < 1000

/-- The time of a deadline, in nanoseconds. -/
def Timespec.nanos (ts : Timespec) : Int := ts.tv_sec * 1000000000 + ts.tv_nsec

/-- `sem_timedwait` takes the deadline. -/
def Timespec.Normal (ts : Timespec) : Prop := 0 ≤ ts.tv_nsec ∧ ts.tv_nsec ≤ 999999999

variable {now : Timeval} {ms : Int}

theorem toNat_add_ofInt {a : UInt32} {n : Int} (hn : 0 ≤ n) (h : a.toNat + n < 2 ^ 32) :
    ((a + .ofInt n).toNat : Int) = a.toNat + n := by
  have hofInt : (UInt32.ofInt n).toNat = n.toNat := by
    rw [UInt32.ofInt, UInt32.toNat_ofNat']
    omega
  rw [UInt32.toNat_add, hofInt]
  omega

theorem msgSemWait_timed (hnow : now.Normal) (hms : 0 < ms)
    (hfits : now.nanos + ms * 1000000 < 2 ^ 32 * 1000000000) :
    msgSemWait now ms = .timedwait ⟨now.uiSec.toNat + ms / 1000,
      (now.uiMsec.toNat + ms % 1000) * 1000000 + now.uiUsec.toNat * 1000⟩ := by
  obtain ⟨hm, hu⟩ := hnow
  rw [Timeval.nanos] at hfits
  have hsec := toNat_add_ofInt (a := now.uiSec) (n := ms / 1000) (by omega) (by omega)
  have hmsec := toNat_add_ofInt (a := now.uiMsec) (n := ms % 1000) (by omega) (by omega)
  rw [msgSemWait, if_neg (by omega), if_neg (by omega), baseSemTimedwait,
    Int.tdiv_eq_ediv_of_nonneg (Int.le_of_lt hms), Int.tmod_eq_emod_of_nonneg (Int.le_of_lt hms),
    hsec]
  -- neither product nor their sum leaves the word
  have hnsec : ((now.uiMsec + UInt32.ofInt (ms % 1000)) * 1000000 + now.uiUsec * 1000).toNat =
      (now.uiMsec + UInt32.ofInt (ms % 1000)).toNat * 1000000 + now.uiUsec.toNat * 1000 := by
    simp only [UInt32.toNat_add, UInt32.toNat_mul, UInt32.toNat_ofNat] at hmsec ⊢
    omega
  rw [hnsec, Int.natCast_add, Int.natCast_mul, Int.natCast_mul, hmsec]
  rfl

/-- The deadline is the sum, and one that `sem_timedwait` takes exactly when the milliseconds do
not fill a second. -/
theorem msgSemWait_deadline_iff (hnow : now.Normal) (hms : 0 < ms)
    (hfits : now.nanos + ms * 1000000 < 2 ^ 32 * 1000000000) :
    (∃ ts, msgSemWait now ms = .timedwait ts ∧ ts.nanos = now.nanos + ms * 1000000 ∧
      ts.Normal) ↔ now.uiMsec.toNat + ms % 1000 < 1000 := by
  rw [msgSemWait_timed hnow hms hfits]
  constructor
  · rintro ⟨ts, heq, -, -, hle⟩
    cases heq
    simp only at hle
    omega
  · intro h
    obtain ⟨hm, hu⟩ := hnow
    refine ⟨_, rfl, ?_, ?_, ?_⟩ <;> simp only [Timespec.nanos, Timeval.nanos] <;> omega

/-- Half a second after a full one, for four tenths. -/
theorem msgSemWait_deadline_half :
    ∃ ts, msgSemWait ⟨1600000000, 500, 0⟩ 400 = .timedwait ts ∧
      ts.nanos = (⟨1600000000, 500, 0⟩ : Timeval).nanos + 400 * 1000000 ∧ ts.Normal :=
  (msgSemWait_deadline_iff ⟨by decide, by decide⟩ (by decide) (by decide)).mpr (by decide)

/-- A millisecond before the second is full, for one: the nanoseconds are a whole second. -/
theorem not_msgSemWait_deadline :
    ¬ ∀ (now : Timeval) (ms : Int), now.Normal → 0 < ms →
      now.nanos + ms * 1000000 < 2 ^ 32 * 1000000000 →
      ∃ ts, msgSemWait now ms = .timedwait ts ∧ ts.nanos = now.nanos + ms * 1000000 ∧
        ts.Normal := by
  intro h
  obtain ⟨ts, heq, -, -, hle⟩ :=
    h ⟨1600000000, 999, 0⟩ 1 ⟨by decide, by decide⟩ (by decide) (by decide)
  have hcall : msgSemWait ⟨1600000000, 999, 0⟩ 1 = .timedwait ⟨1600000000, 1000000000⟩ := by
    decide
  rw [hcall] at heq
  cases heq
  exact absurd hle (by decide)

end Honyar.MsgQueue
