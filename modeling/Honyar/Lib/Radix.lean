import Mathlib.Algebra.Order.Ring.Nat
import Mathlib.Data.Nat.Notation

/-!
# Numbers in bytes

A number in `w` bytes, the highest first, and the number that bytes stand for when they are taken as
digits in a radix.  In the radix of the bytes the number comes back; in a smaller radix it does so
only where it has a single digit.
-/

namespace Honyar.Radix

/-- The number of the digits `bs`. -/
def value (r : ℕ) (bs : List UInt8) : ℕ := bs.foldl (fun sum b => sum * r + b.toNat) 0

/-- The low `w` bytes of a number, the highest first. -/
def bytes : ℕ → ℕ → List UInt8
  | 0, _ => []
  | w + 1, n => bytes w (n / 256) ++ [UInt8.ofNat n]

@[simp] theorem length_bytes (w n : ℕ) : (bytes w n).length = w := by
  induction w generalizing n with
  | zero => rfl
  | succ w ih => rw [bytes, List.length_append, ih, List.length_singleton]

theorem value_bytes_succ (r w n : ℕ) :
    value r (bytes (w + 1) n) = value r (bytes w (n / 256)) * r + n % 256 := by
  rw [bytes, value, List.foldl_append, List.foldl_cons, List.foldl_nil, UInt8.toNat_ofNat']
  rfl

theorem div_lt {w n : ℕ} (h : n < 256 ^ (w + 1)) : n / 256 < 256 ^ w := by
  rw [pow_succ] at h
  exact Nat.div_lt_of_lt_mul (by rwa [mul_comm])

theorem value_bytes {w n : ℕ} (h : n < 256 ^ w) : value 256 (bytes w n) = n := by
  induction w generalizing n with
  | zero => exact (Nat.lt_one_iff.mp h).symm
  | succ w ih =>
    rw [value_bytes_succ, ih (div_lt h)]
    omega

theorem value_bytes_le {r w n : ℕ} (hr : r ≤ 256) (h : n < 256 ^ w) :
    value r (bytes w n) ≤ n := by
  induction w generalizing n with
  | zero => exact Nat.zero_le n
  | succ w ih =>
    rw [value_bytes_succ]
    have hle := Nat.mul_le_mul (ih (div_lt h)) hr
    omega

/-- In a radix that is too small, a number of several bytes becomes smaller. -/
theorem value_bytes_eq_iff {r w n : ℕ} (hr : r < 256) (hw : 0 < w) (h : n < 256 ^ w) :
    value r (bytes w n) = n ↔ n < 256 := by
  obtain ⟨w, rfl⟩ : ∃ w', w = w' + 1 := ⟨w - 1, by omega⟩
  rw [value_bytes_succ]
  have hle := value_bytes_le hr.le (div_lt h)
  constructor
  · intro heq
    by_contra hlarge
    have hquot : 0 < n / 256 := Nat.div_pos (by omega) (by decide)
    have hmul : value r (bytes w (n / 256)) * r ≤ n / 256 * 255 :=
      Nat.mul_le_mul hle (Nat.le_of_lt_succ hr)
    omega
  · intro hsmall
    have hquot : n / 256 = 0 := Nat.div_eq_of_lt hsmall
    rw [hquot] at hle ⊢
    rw [Nat.le_zero.mp hle, Nat.zero_mul, Nat.zero_add, Nat.mod_eq_of_lt hsmall]

end Honyar.Radix
