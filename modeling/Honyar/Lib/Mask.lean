import Mathlib.Data.BitVec
import Mathlib.Tactic.Common

/-!
# Truth bits in machine words

A word of `w` bits used as an array of booleans: one bit is tested, set or
cleared by shifting `1`, and the first `n` bits are read all at once through
the mask `~0 >> (w - n)`.  The lemmas below say what each of these expressions
does to the single bits (`BitVec.getLsbD`), so that later proofs never unfold a
shift.
-/

namespace Honyar.Mask

open BitVec

variable {w : Nat}
variable {i n : Nat}

/-- `x & (1 << i) ? 1 : 0`. -/
def test (x : BitVec w) (i : Nat) : Bool := x &&& (1#w <<< i) != 0#w

/-- `x |= 1 << i` when `b`, `x &= ~(1 << i)` otherwise. -/
def write (x : BitVec w) (i : Nat) (b : Bool) : BitVec w :=
  if b then x ||| (1#w <<< i) else x &&& ~~~(1#w <<< i)

/-- `~0 >> (w - n)`: the lowest `n` bits. -/
def low (w n : Nat) : BitVec w := BitVec.allOnes w >>> (w - n)

/-- `x & low n ? 1 : 0`: some of the lowest `n` bits is set. -/
def anyLow (x : BitVec w) (n : Nat) : Bool := x &&& low w n != 0#w

/-- `(x & low n) == low n ? 1 : 0`: all of the lowest `n` bits are set. -/
def allLow (x : BitVec w) (n : Nat) : Bool := x &&& low w n == low w n

theorem getLsbD_shiftLeft_one (i j : Nat) (hi : i < w) :
    (1#w <<< i).getLsbD j = decide (j = i) := by
  have hw : 0 < w := by omega
  rw [getLsbD_shiftLeft]
  by_cases h : j = i
  · subst h
    simp [hi, hw]
  · by_cases hj : j < i
    · simp [h, hj]
    · have : j - i ≠ 0 := by omega
      simp [h, getLsbD_one, this]

@[simp] theorem test_eq (x : BitVec w) (hi : i < w) : test x i = x.getLsbD i := by
  unfold test
  cases hx : x.getLsbD i with
  | false =>
    have h0 : x &&& (1#w <<< i) = 0#w := by
      apply eq_of_getLsbD_eq
      intro j _
      rw [getLsbD_and, getLsbD_shiftLeft_one i j hi]
      by_cases hj : j = i
      · subst hj; simp [hx]
      · simp [hj]
    simp [h0]
  | true =>
    have h1 : x &&& (1#w <<< i) ≠ 0#w := by
      intro h
      have := congrArg (fun y => y.getLsbD i) h
      simp [getLsbD_and, getLsbD_shiftLeft_one i i hi, hx] at this
    simpa using h1

theorem getLsbD_write (x : BitVec w) (hi : i < w) (b : Bool) (j : Nat) :
    (write x i b).getLsbD j = if j = i then b else x.getLsbD j := by
  unfold write
  cases b with
  | true =>
    rw [if_pos rfl, getLsbD_or, getLsbD_shiftLeft_one i j hi]
    by_cases h : j = i <;> simp [h]
  | false =>
    rw [if_neg (by decide), getLsbD_and, getLsbD_not,
      getLsbD_shiftLeft_one i j hi]
    by_cases h : j = i
    · simp [h]
    · by_cases hj : j < w
      · simp [h, hj]
      · simp [h, getLsbD_of_ge x j (by omega)]

@[simp] theorem getLsbD_write_self (x : BitVec w) (hi : i < w) (b : Bool) :
    (write x i b).getLsbD i = b := by
  rw [getLsbD_write x hi, if_pos rfl]

theorem getLsbD_write_of_ne (x : BitVec w) {j : Nat} (hi : i < w) (b : Bool) (h : j ≠ i) :
    (write x i b).getLsbD j = x.getLsbD j := by
  rw [getLsbD_write x hi, if_neg h]

/-- The last of two writes to one bit counts. -/
@[simp] theorem write_write (x : BitVec w) (hi : i < w) (b b' : Bool) :
    write (write x i b) i b' = write x i b' := by
  apply eq_of_getLsbD_eq
  intro j _
  simp only [getLsbD_write _ hi]
  split <;> rfl

/-- Writing the value a bit already has changes nothing. -/
theorem write_eq_self (x : BitVec w) (hi : i < w) {b : Bool} (h : x.getLsbD i = b) :
    write x i b = x := by
  apply eq_of_getLsbD_eq
  intro j _
  rw [getLsbD_write x hi]
  split
  · rename_i hj; rw [hj, h]
  · rfl

theorem getLsbD_low (hn : n ≤ w) (j : Nat) : (low w n).getLsbD j = decide (j < n) := by
  unfold low
  rw [getLsbD_ushiftRight, getLsbD_allOnes]
  congr 1
  apply propext
  omega

theorem anyLow_iff (x : BitVec w) (hn : n ≤ w) :
    anyLow x n = true ↔ ∃ j < n, x.getLsbD j = true := by
  unfold anyLow
  rw [bne_iff_ne]
  constructor
  · intro h
    by_contra hno
    apply h
    apply eq_of_getLsbD_eq
    intro j _
    rw [getLsbD_and, getLsbD_low hn]
    by_cases hj : j < n
    · have : x.getLsbD j = false := by
        cases hx : x.getLsbD j with
        | false => rfl
        | true => exact absurd ⟨j, hj, hx⟩ hno
      simp [this]
    · simp [hj]
  · rintro ⟨j, hj, hx⟩ h
    have := congrArg (fun y => y.getLsbD j) h
    simp [getLsbD_and, getLsbD_low hn, hx, hj] at this

theorem allLow_iff (x : BitVec w) (hn : n ≤ w) :
    allLow x n = true ↔ ∀ j < n, x.getLsbD j = true := by
  unfold allLow
  rw [beq_iff_eq]
  constructor
  · intro h j hj
    have := congrArg (fun y => y.getLsbD j) h
    simpa [getLsbD_and, getLsbD_low hn, hj] using this
  · intro h
    apply eq_of_getLsbD_eq
    intro j _
    rw [getLsbD_and, getLsbD_low hn]
    by_cases hj : j < n
    · simp [h j hj]
    · simp [hj]

end Honyar.Mask
