import Mathlib.Data.List.Basic
import Mathlib.Data.List.Forall2

/-!
# Lists that are cut, and lists whose items may fail
-/

namespace Honyar

open Option

variable {α β : Type}

/-- The items of `mapM` are those of the function. -/
theorem mapM_eq_some_iff {f : α → Option β} {xs : List α} {ys : List β} :
    xs.mapM f = some ys ↔ List.Forall₂ (fun x y => f x = some y) xs ys := by
  induction xs generalizing ys with
  | nil =>
    rw [List.mapM_nil, List.forall₂_nil_left_iff]
    exact ⟨fun h => (some.inj h).symm, fun h => h ▸ rfl⟩
  | cons x xs ih =>
    simp only [List.mapM_cons, bind_eq_bind, bind_eq_some_iff, pure_def,
      some.injEq, ih, List.forall₂_cons_left_iff]
    constructor
    · rintro ⟨y, hy, ys', hys, rfl⟩
      exact ⟨y, ys', hy, hys, rfl⟩
    · rintro ⟨y, ys', hy, hys, rfl⟩
      exact ⟨y, hy, ys', hys, rfl⟩

/-- All items are there as soon as each is. -/
theorem mapM_isSome_iff {f : α → Option β} {xs : List α} :
    (xs.mapM f).isSome ↔ ∀ x ∈ xs, (f x).isSome := by
  induction xs with
  | nil => simp
  | cons x xs ih =>
    rw [List.forall_mem_cons, ← ih, List.mapM_cons]
    cases f x <;> cases xs.mapM f <;> simp

/-- The pieces of a list make up the list. -/
theorem flatten_toChunks (n : Nat) (xs : List α) : (xs.toChunks n).flatten = xs := by
  have hgo : ∀ (n : Nat) (xs : List α) (acc₁ : Array α) (acc₂ : Array (List α)),
      (List.toChunks.go n xs acc₁ acc₂).flatten = acc₂.toList.flatten ++ acc₁.toList ++ xs := by
    intro n xs
    induction xs with
    | nil =>
      intro acc₁ acc₂
      simp [List.toChunks.go]
    | cons x xs ih =>
      intro acc₁ acc₂
      rw [List.toChunks.go]
      split
      · simp [ih]
      · simp [ih]
  match n, xs with
  | n, [] => simp [List.toChunks]
  | 0, x :: xs => simp [List.toChunks]
  | n + 1, x :: xs =>
    rw [List.toChunks, hgo]
    · rfl
    · simp

theorem toChunks_go (n : Nat) (xs : List α) (acc₁ : Array α) (acc₂ : Array (List α))
    (hacc : acc₁.size ≤ n + 1) :
    List.toChunks.go (n + 1) xs acc₁ acc₂ =
      acc₂.toList ++ (acc₁.toList ++ xs.take (n + 1 - acc₁.size)) ::
        (xs.drop (n + 1 - acc₁.size)).toChunks (n + 1) := by
  induction xs generalizing acc₁ acc₂ with
  | nil => simp [List.toChunks.go, List.toChunks]
  | cons x xs ih =>
    rw [List.toChunks.go]
    by_cases hfull : acc₁.size = n + 1
    · rw [if_pos (by simpa using hfull), ih _ _ (by simp), hfull, Nat.sub_self, List.take_zero,
        List.drop_zero, List.toChunks, ih _ _ (by simp)]
      · simp
      · simp
    · have hstep : n + 1 - acc₁.size = n - acc₁.size + 1 := by omega
      rw [if_neg (by simpa using hfull), ih _ _ (by simp; omega), hstep]
      simp

/-- The first piece, and the pieces of what is left. -/
theorem toChunks_succ (n : Nat) {xs : List α} (h : xs ≠ []) :
    xs.toChunks (n + 1) = xs.take (n + 1) :: (xs.drop (n + 1)).toChunks (n + 1) := by
  cases xs with
  | nil => exact absurd rfl h
  | cons x xs =>
    rw [List.toChunks, toChunks_go _ _ _ _ (by simp)]
    · simp
    · simp

/-- The first item that is found can be put before the others. -/
theorem perm_eraseP {found : α → Bool} {xs : List α} {x : α} (h : xs.find? found = some x) :
    xs.Perm (x :: xs.eraseP found) := by
  induction xs with
  | nil => simp at h
  | cons y xs ih =>
    by_cases hy : found y
    · obtain rfl : y = x := by simpa [hy] using h
      simp [hy]
    · rw [List.find?_cons_of_neg hy] at h
      rw [List.eraseP_cons_of_neg hy]
      exact ((ih h).cons y).trans (List.Perm.swap x y _)

end Honyar
