import Mathlib.Data.List.Basic

/-!
# Memory that is read byte by byte

A buffer as the cells behind a pointer, without an end of its own, and the lists
that stand in it.
-/

namespace Honyar

variable {α : Type}

/-- The cells behind a pointer. -/
abbrev Memory (α : Type) := Nat → α

namespace Memory

variable {m : Memory α} {i : Nat} {a : α} {as bs : List α}

/-- The list stands in the memory from an index on. -/
def At (m : Memory α) : Nat → List α → Prop
  | _, [] => True
  | i, a :: as => m i = a ∧ At m (i + 1) as

/-- The cells from an index on, as many as asked for. -/
def cells (m : Memory α) (i : Nat) : Nat → List α
  | 0 => []
  | n + 1 => m i :: cells m (i + 1) n

@[simp] theorem at_nil : At m i [] := trivial

@[simp] theorem at_cons : At m i (a :: as) ↔ m i = a ∧ At m (i + 1) as := Iff.rfl

theorem at_append : At m i (as ++ bs) ↔ At m i as ∧ At m (i + as.length) bs := by
  induction as generalizing i with
  | nil => simp
  | cons a as ih =>
    rw [List.cons_append, at_cons, at_cons, ih, and_assoc, List.length_cons, Nat.add_assoc,
      Nat.add_comm 1]

@[simp] theorem length_cells (m : Memory α) (i n : Nat) : (m.cells i n).length = n := by
  induction n generalizing i with
  | zero => rfl
  | succ n ih => rw [cells, List.length_cons, ih]

theorem at_cells (m : Memory α) (i n : Nat) : At m i (m.cells i n) := by
  induction n generalizing i with
  | zero => exact at_nil
  | succ n ih => exact ⟨rfl, ih (i + 1)⟩

/-- A list that stands in the memory is what is read there. -/
theorem At.cells_eq (h : At m i as) : m.cells i as.length = as := by
  induction as generalizing i with
  | nil => rfl
  | cons a as ih =>
    obtain ⟨ha, has⟩ := h
    rw [List.length_cons, cells, ha, ih has]

theorem At.right (h : At m i (as ++ bs)) : At m (i + as.length) bs := (at_append.mp h).2

theorem At.left (h : At m i (as ++ bs)) : At m i as := (at_append.mp h).1

end Memory

end Honyar
