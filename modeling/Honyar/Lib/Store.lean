import Mathlib.Data.List.Nodup
import Mathlib.Logic.Function.Basic
import Mathlib.Tactic.Common

/-!
# Tables of rows with a key

A table as the list of its rows, each with a key.  `replace` is the insertion that takes away
what has the row's key, `put` the one that overwrites it in place, and `remove` the deletion
of what has a key.  When no two rows share a key, all three keep it so, and each says what the
rows are afterwards.
-/

namespace Honyar.Store

open List Function

variable {ρ κ : Type} [DecidableEq κ] (key : ρ → κ)

/-- Deleting the rows of a key. -/
def remove (k : κ) (rows : List ρ) : List ρ :=
  rows.filter fun r => key r ≠ k

/-- Inserting a row, or replacing the row with its key by it. -/
def replace (r : ρ) (rows : List ρ) : List ρ :=
  remove key (key r) rows ++ [r]

/-- Inserting a row, or overwriting the row with its key. -/
def put (r : ρ) (rows : List ρ) : List ρ :=
  if rows.any fun x => key x = key r then rows.map fun x => if key x = key r then r else x
  else rows ++ [r]

variable {key} {r x : ρ} {k : κ} {rows : List ρ}

theorem mem_remove : x ∈ remove key k rows ↔ x ∈ rows ∧ key x ≠ k := by
  simp [remove]

theorem mem_replace : x ∈ replace key r rows ↔ x = r ∨ x ∈ rows ∧ key x ≠ key r := by
  rw [replace, mem_append, mem_remove, mem_singleton, or_comm]

theorem mem_put : x ∈ put key r rows ↔ x = r ∨ x ∈ rows ∧ key x ≠ key r := by
  unfold put
  split
  next h =>
    obtain ⟨y, hy, heq⟩ := any_eq_true.mp h
    have heq : key y = key r := by simpa using heq
    rw [mem_map]
    constructor
    · rintro ⟨z, hz, rfl⟩
      by_cases hk : key z = key r
      · exact .inl (if_pos hk)
      · exact .inr (by rw [if_neg hk]; exact ⟨hz, hk⟩)
    · rintro (rfl | ⟨hx, hk⟩)
      · exact ⟨y, hy, if_pos heq⟩
      · exact ⟨x, hx, if_neg hk⟩
  next h =>
    have hall : ∀ y ∈ rows, key y ≠ key r := fun y hy heq =>
      h (any_eq_true.mpr ⟨y, hy, by simpa using heq⟩)
    rw [mem_append, mem_singleton]
    constructor
    · rintro (hx | rfl)
      · exact .inr ⟨hx, hall x hx⟩
      · exact .inl rfl
    · rintro (rfl | ⟨hx, -⟩)
      · exact .inr rfl
      · exact .inl hx

theorem nodup_remove (h : (rows.map key).Nodup) (k : κ) : ((remove key k rows).map key).Nodup :=
  h.sublist (filter_sublist.map key)

theorem nodup_replace (h : (rows.map key).Nodup) (r : ρ) :
    ((replace key r rows).map key).Nodup := by
  rw [replace, map_append, nodup_append]
  refine ⟨nodup_remove h _, nodup_singleton _, ?_⟩
  rintro a ha b hb rfl
  obtain ⟨x, hx, rfl⟩ := mem_map.mp ha
  exact (mem_remove.mp hx).2 (by simpa using hb)

theorem nodup_put (h : (rows.map key).Nodup) (r : ρ) : ((put key r rows).map key).Nodup := by
  unfold put
  split
  next =>
    have hkeys : (rows.map fun x => if key x = key r then r else x).map key = rows.map key := by
      rw [map_map]
      refine map_congr_left fun x _ => ?_
      by_cases hk : key x = key r
      · rw [comp_apply, if_pos hk, hk]
      · rw [comp_apply, if_neg hk]
    rw [hkeys]
    exact h
  next hno =>
    rw [map_append, nodup_append]
    refine ⟨h, nodup_singleton _, ?_⟩
    rintro a ha b hb rfl
    obtain ⟨x, hx, rfl⟩ := mem_map.mp ha
    exact hno (any_eq_true.mpr ⟨x, hx, by simpa using hb⟩)

/-! ## Looking up -/

theorem find?_put (r : ρ) (k : κ) (rows : List ρ) :
    (put key r rows).find? (fun x => key x = k) =
      if key r = k then some r else rows.find? fun x => key x = k := by
  have hmap : (rows.map fun x => if key x = key r then r else x).find? (fun x => key x = k) =
      if key r = k then (if rows.any fun x => key x = key r then some r else none)
      else rows.find? fun x => key x = k := by
    induction rows with
    | nil => simp
    | cons x xs ih =>
      by_cases hx : key x = key r
      · by_cases hk : key r = k
        · simp [hx, hk]
        · simp [hx, hk, ih]
      · by_cases hk : key r = k
        · have hxk : key x ≠ k := fun h => hx (h.trans hk.symm)
          rw [map_cons, if_neg hx, find?_cons_of_neg (by simpa using hxk), ih,
            if_pos hk, if_pos hk, any_cons]
          simp [hx]
        · rw [if_neg hk] at ih ⊢
          rw [map_cons, if_neg hx, find?_cons, find?_cons, ih]
  unfold put
  split
  next h => rw [hmap, if_pos h]
  next h =>
    rw [find?_append]
    by_cases hk : key r = k
    · have hnone : rows.find? (fun x => key x = k) = none := by
        rw [find?_eq_none]
        intro x hx heq
        exact h (any_eq_true.mpr ⟨x, hx, by simpa [hk] using heq⟩)
      simp [hnone, hk]
    · simp [hk]

theorem find?_remove (k j : κ) (rows : List ρ) :
    (remove key k rows).find? (fun x => key x = j) =
      if k = j then none else rows.find? fun x => key x = j := by
  rw [remove, find?_filter]
  split
  next h =>
    subst h
    simp
  next h =>
    congr 1
    funext x
    by_cases hx : key x = j
    · simp [hx, Ne.symm h]
    · simp [hx]

theorem find?_replace (r : ρ) (j : κ) (rows : List ρ) :
    (replace key r rows).find? (fun x => key x = j) =
      if key r = j then some r else rows.find? fun x => key x = j := by
  rw [replace, find?_append, find?_remove]
  split
  next h => simp [h]
  next h => simp [h]

section

variable {γ : Type} {key : ρ → κ} {val : ρ → γ} {as bs : List ρ}

/-- What a row shows, found by its key. -/
def lookup (key : ρ → κ) (val : ρ → γ) (rows : List ρ) (k : κ) : Option γ :=
  (rows.find? fun r => key r = k).map val

theorem lookup_eq_none : lookup key val rows k = none ↔ ∀ r ∈ rows, key r ≠ k := by
  simp [lookup]

/-- A row with a new key behind the others. -/
theorem lookup_append (h : ∀ x ∈ rows, key x ≠ key r) :
    lookup key val (rows ++ [r]) = Function.update (lookup key val rows) (key r)
      (some (val r)) := by
  funext k
  by_cases hk : k = key r
  · subst hk
    have hnone : rows.find? (fun x => decide (key x = key r)) = none := by simpa using h
    rw [update_self, lookup, find?_append, hnone]
    simp
  · rw [update_of_ne hk, lookup, lookup, find?_append,
      find?_cons_of_neg (by simpa using Ne.symm hk)]
    simp

/-- Another row in the place of one with its key. -/
theorem lookup_replace (hr : key x = key r) (hA : ∀ y ∈ as, key y ≠ key r) :
    lookup key val (as ++ x :: bs) =
      Function.update (lookup key val (as ++ r :: bs)) (key r) (some (val x)) := by
  funext k
  have hnone : as.find? (fun y => decide (key y = key r)) = none := by simpa using hA
  by_cases hk : k = key r
  · subst hk
    rw [update_self, lookup, find?_append, hnone]
    simp [hr]
  · rw [update_of_ne hk, lookup, lookup, find?_append, find?_append,
      find?_cons_of_neg (by simpa [hr] using Ne.symm hk),
      find?_cons_of_neg (by simpa using Ne.symm hk)]

/-- A row taken out. -/
theorem lookup_remove (hA : ∀ y ∈ as, key y ≠ key r) (hB : ∀ y ∈ bs, key y ≠ key r) :
    lookup key val (as ++ bs) =
      Function.update (lookup key val (as ++ r :: bs)) (key r) none := by
  funext k
  by_cases hk : k = key r
  · subst hk
    rw [update_self, lookup_eq_none]
    intro y hy
    rcases mem_append.mp hy with hy | hy
    · exact hA y hy
    · exact hB y hy
  · rw [update_of_ne hk, lookup, lookup, find?_append, find?_append,
      find?_cons_of_neg (by simpa using Ne.symm hk)]

end

end Honyar.Store
