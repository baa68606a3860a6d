import Mathlib.Data.List.Basic
import Mathlib.Tactic.Common

/-!
# Values that are announced when they change

Readings of a value arrive one after another.  `current` is the value they leave, `changes` the
readings that are announced: those that differ from the value before them, or all of them where
the value is one that is always announced.
-/

namespace Honyar.Ledger

variable {ν : Type}

/-- The value after some readings: the last of them, or the value before. -/
def current (v : Option ν) (rs : List ν) : Option ν := rs.getLast?.or v

@[simp] theorem current_nil (v : Option ν) : current v [] = v := rfl

theorem current_snoc (v : Option ν) (rs : List ν) (r : ν) : current v (rs ++ [r]) = some r := by
  simp [current]

theorem current_cons (v : Option ν) (r : ν) (rs : List ν) :
    current v (r :: rs) = current (some r) rs := by
  cases h : rs.getLast? with
  | none =>
    obtain rfl := List.getLast?_eq_none_iff.mp h
    rfl
  | some x => simp [current, List.getLast?_cons, h]

variable [DecidableEq ν]

/-- The readings that are announced. -/
def changes (always : Bool) : Option ν → List ν → List ν
  | _, [] => []
  | v, r :: rs => if some r ≠ v ∨ always then r :: changes always (some r) rs
      else changes always (some r) rs

theorem changes_snoc (always : Bool) (v : Option ν) (rs : List ν) (r : ν) :
    changes always v (rs ++ [r]) =
      changes always v rs ++ if some r ≠ current v rs ∨ always then [r] else [] := by
  induction rs generalizing v with
  | nil => rfl
  | cons x rs ih =>
    rw [List.cons_append, changes, changes, ih, current_cons]
    split
    · rw [List.cons_append]
    · rfl

end Honyar.Ledger
