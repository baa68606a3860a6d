import Mathlib.Data.List.Basic
import Mathlib.Tactic.Common

/-!
# A stream cut into chunks

A receiver sees a stream as a list of chunks whose concatenation is the stream.
`Within cs i n` says that the `n` elements from position `i` of the stream came
in one chunk; the lemmas below move that statement along as the front of the
stream is consumed.
-/

namespace Honyar.Chunks

variable {α : Type}

/-- Positions `i` to `i + n` of the stream lie in one chunk. -/
def Within : List (List α) → Nat → Nat → Prop
  | [], _, _ => False
  | c :: cs, i, n => i + n ≤ c.length ∨ c.length ≤ i ∧ Within cs (i - c.length) n

instance decidableWithin : (cs : List (List α)) → (i n : Nat) → Decidable (Within cs i n)
  | [], _, _ => inferInstanceAs (Decidable False)
  | c :: cs, i, n =>
    have := decidableWithin cs (i - c.length) n
    inferInstanceAs (Decidable (i + n ≤ c.length ∨ c.length ≤ i ∧ Within cs (i - c.length) n))

variable {c d : List α} {cs : List (List α)} {i n : Nat}

/-- Elements behind the first chunk are looked for in the others. -/
theorem within_behind (hn : 0 < n) : Within (c :: cs) (c.length + i) n ↔ Within cs i n := by
  have hout : ¬ c.length + i + n ≤ c.length := by omega
  simp [Within, hout]

/-- What has been consumed of the first chunk can be dropped. -/
theorem within_drop : Within ((c ++ d) :: cs) (c.length + i) n ↔ Within (d :: cs) i n := by
  have hfirst : c.length + i + n ≤ (c ++ d).length ↔ i + n ≤ d.length := by
    rw [List.length_append]
    omega
  have hlater : (c ++ d).length ≤ c.length + i ↔ d.length ≤ i := by
    rw [List.length_append]
    omega
  have hpos : c.length + i - (c ++ d).length = i - d.length := by
    rw [List.length_append]
    omega
  rw [Within, Within, hfirst, hlater, hpos]

/-- Elements at the front of the stream lie in one chunk when they lie in the
first, unless that is empty. -/
theorem within_front {a : α} : Within ((a :: c) :: cs) 0 n ↔ n ≤ c.length + 1 := by
  simp [Within]

end Honyar.Chunks
