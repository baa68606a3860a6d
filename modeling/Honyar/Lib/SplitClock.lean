import Mathlib.Algebra.Group.Nat.Defs
import Mathlib.Tactic.Common

/-!
# Clocks in two words

An instant as seconds and milliseconds, each a word of 32 bits.  Whether an interval has passed
between two of them is asked of the two differences, which are those of words: a second that has
to be borrowed for the milliseconds is not.  So the answer is right exactly when none is needed,
or when the seconds decide alone.
-/

namespace Honyar.SplitClock

/-- The milliseconds of an instant. -/
def millis (s m : UInt32) : Nat := 1000 * s.toNat + m.toNat

/-- The instant of a number of milliseconds; the seconds start again when the word is full. -/
def seconds (t : Nat) : UInt32 := UInt32.ofNat (t / 1000)

/-- The milliseconds of the second. -/
def remainder (t : Nat) : UInt32 := UInt32.ofNat (t % 1000)

/-- The test for `q` seconds and `r` milliseconds between an instant and a later one, of which
`ds` and `dm` are the differences. -/
def passed (q r : Nat) (ds dm : UInt32) : Bool :=
  decide (q < ds.toNat) || (decide (ds.toNat = q) && decide (r ≤ dm.toNat))

/-- No second is borrowed, or the seconds decide without it. -/
def Unborrowed (q r : Nat) (s m s' m' : UInt32) : Prop :=
  m' ≤ m ∨ ((s - s').toNat ≠ q ∧ ((s - s').toNat = q + 1 → r + m'.toNat ≤ 1000 + m.toNat))

instance decidableUnborrowed (q r : Nat) (s m s' m' : UInt32) :
    Decidable (Unborrowed q r s m s' m') :=
  inferInstanceAs (Decidable (_ ∨ _))

variable {q r : Nat} {s m s' m' : UInt32}

theorem passed_eq_true_iff {ds dm : UInt32} :
    passed q r ds dm = true ↔ q < ds.toNat ∨ (ds.toNat = q ∧ r ≤ dm.toNat) := by
  rw [passed, Bool.or_eq_true, Bool.and_eq_true, decide_eq_true_iff, decide_eq_true_iff,
    decide_eq_true_iff]

/-- The later of two instants has no fewer seconds, and so their difference is that of numbers. -/
theorem toNat_seconds_sub (hm : m.toNat < 1000) (hle : millis s' m' ≤ millis s m) :
    (s - s').toNat + s'.toNat = s.toNat := by
  rw [millis, millis] at hle
  have hs : s'.toNat ≤ s.toNat := by omega
  rw [UInt32.toNat_sub_of_le _ _ (UInt32.le_iff_toNat_le.mpr hs)]
  omega

/-- A difference that would need a second is nearly a full word. -/
theorem toNat_sub_of_lt (h : m < m') : (m - m').toNat + m'.toNat = 2 ^ 32 + m.toNat := by
  have hlt : m.toNat < m'.toNat := h
  have hbound : m'.toNat < 2 ^ 32 := m'.toNat_lt
  rw [UInt32.toNat_sub]
  omega

/-- The test tells whether the interval has passed exactly when no second is missing. -/
theorem passed_exact_iff (hm : m.toNat < 1000) (hm' : m'.toNat < 1000) (hr : r < 1000)
    (hle : millis s' m' ≤ millis s m) :
    (passed q r (s - s') (m - m') = true ↔ millis s' m' + (1000 * q + r) ≤ millis s m) ↔
      Unborrowed q r s m s' m' := by
  have hs := toNat_seconds_sub hm hle
  rw [passed_eq_true_iff, Unborrowed, millis, millis]
  by_cases hborrow : m < m'
  · have hwrap := toNat_sub_of_lt hborrow
    have hlt : m.toNat < m'.toNat := hborrow
    have hnle : ¬ m' ≤ m := fun h => absurd (UInt32.le_iff_toNat_le.mp h) (by omega)
    rw [or_iff_right hnle]
    omega
  · have hle' : m' ≤ m := UInt32.not_lt.mp hborrow
    have hsub : (m - m').toNat = m.toNat - m'.toNat := UInt32.toNat_sub_of_le _ _ hle'
    have hnat : m'.toNat ≤ m.toNat := UInt32.le_iff_toNat_le.mp hle'
    rw [hsub]
    exact iff_of_true (by omega) (Or.inl hle')

/-! ## Instants of a number of milliseconds -/

theorem toNat_seconds (t : Nat) : (seconds t).toNat = t / 1000 % 2 ^ 32 := UInt32.toNat_ofNat'

end Honyar.SplitClock
