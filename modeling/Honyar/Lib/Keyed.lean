import Mathlib.Data.List.Forall2
import Mathlib.Data.List.Nodup
import Mathlib.Tactic.Common

/-!
# Chains of records found by a key

A chain is a list of records, each with a key (an address, an identifier);
`find?` follows a key to its record and mapping over the records with that key
is a write through it.  When no two records share a key, a lookup is membership
and a write changes exactly one record.
-/

namespace Honyar.Keyed

open List

variable {α κ : Type} {key : α → κ}
variable {xs : List α} {x : α} {a : κ} {f : α → α}

theorem eq_of_key_eq (h : (xs.map key).Nodup) {y : α} (hx : x ∈ xs) (hy : y ∈ xs)
    (hk : key x = key y) : x = y :=
  inj_on_of_nodup_map h hx hy hk

/-- A record of one of two chains related place by place has its counterpart. -/
theorem exists_of_forall₂ {β : Type} {R : α → β → Prop} {ys : List β} (h : List.Forall₂ R xs ys)
    {b : β} (hb : b ∈ ys) : ∃ a ∈ xs, R a b := by
  induction h with
  | nil => cases hb
  | cons hab _ ih =>
    rcases mem_cons.mp hb with rfl | hb
    · exact ⟨_, mem_cons_self, hab⟩
    · obtain ⟨a, ha, hR⟩ := ih hb
      exact ⟨a, mem_cons_of_mem _ ha, hR⟩

/-- Taking the records of one key out of a chain takes one. -/
theorem length_filter_key [DecidableEq κ] (h : (xs.map key).Nodup) (hx : x ∈ xs) :
    (xs.filter fun y => key y != key x).length + 1 = xs.length := by
  induction xs with
  | nil => cases hx
  | cons y ys ih =>
    rw [map_cons, nodup_cons] at h
    rcases mem_cons.mp hx with rfl | hx
    · have hys : ys.filter (fun y => key y != key x) = ys := by
        rw [filter_eq_self]
        intro z hz
        have hne : key z ≠ key x := fun heq => h.1 (heq ▸ mem_map_of_mem hz)
        simpa using hne
      simp [hys]
    · have hne : key y ≠ key x := fun heq => h.1 (heq ▸ mem_map_of_mem hx)
      have hfirst : (y :: ys).filter (fun y => key y != key x) =
          y :: ys.filter fun y => key y != key x := filter_cons_of_pos (by simpa using hne)
      rw [hfirst, length_cons, ih h.2 hx, length_cons]

/-- One record has a key. -/
theorem filter_key_eq [DecidableEq κ] (h : (xs.map key).Nodup) (hx : x ∈ xs) :
    (xs.filter fun y => key y = key x) = [x] := by
  induction xs with
  | nil => cases hx
  | cons y ys ih =>
    rw [map_cons, nodup_cons] at h
    rcases mem_cons.mp hx with rfl | hx
    · have hys : (ys.filter fun y => key y = key x) = [] := by
        rw [filter_eq_nil_iff]
        intro z hz
        have hne : key z ≠ key x := fun heq => h.1 (heq ▸ mem_map_of_mem hz)
        simpa using hne
      simp [hys]
    · have hne : key y ≠ key x := fun heq => h.1 (heq ▸ mem_map_of_mem hx)
      have hfirst : ((y :: ys).filter fun y => key y = key x) =
          ys.filter fun y => key y = key x := filter_cons_of_neg (by simpa using hne)
      rw [hfirst, ih h.2 hx]

/-- Erasing the record of a key leaves none with that key. -/
theorem notMem_eraseP (h : (xs.map key).Nodup) {q : α → Bool}
    (hq : ∀ y, q y = true ↔ key y = key x) :
    x ∉ xs.eraseP q := by
  induction xs with
  | nil => exact not_mem_nil
  | cons y ys ih =>
    rw [map_cons, nodup_cons] at h
    by_cases hy : q y = true
    · rw [eraseP_cons_of_pos hy]
      intro hx
      exact h.1 ((hq y).mp hy ▸ mem_map_of_mem hx)
    · rw [eraseP_cons_of_neg hy, mem_cons, not_or]
      exact ⟨fun heq => hy ((hq y).mpr (congrArg key heq.symm)), ih h.2⟩

/-- Erasing the record of a key leaves the others. -/
theorem eraseP_eq_filter (h : (xs.map key).Nodup) {q : α → Bool}
    (hq : ∀ y, q y = true ↔ key y = a) :
    xs.eraseP q = xs.filter fun y => !q y := by
  induction xs with
  | nil => rfl
  | cons y ys ih =>
    rw [map_cons, nodup_cons] at h
    by_cases hy : q y = true
    · rw [eraseP_cons_of_pos hy, filter_cons_of_neg (by simpa using hy)]
      refine (filter_eq_self.mpr fun z hz => ?_).symm
      have hz' : ¬ q z = true := fun hqz =>
        h.1 (((hq y).mp hy).trans ((hq z).mp hqz).symm ▸ mem_map_of_mem hz)
      simpa using hz'
    · rw [eraseP_cons_of_neg hy, filter_cons_of_pos (by simpa using hy), ih h.2]

/-- In a chain numbered from 0, every record stands at its number. -/
theorem getElem_of_map_eq_range {f : α → Nat} {n : Nat} (h : xs.map f = List.range n)
    (hx : x ∈ xs) :
    ∃ i, ∃ hi : i < xs.length, xs[i] = x ∧ f x = i := by
  obtain ⟨i, hi, rfl⟩ := getElem_of_mem hx
  refine ⟨i, hi, rfl, ?_⟩
  have := congrArg (fun ys => ys[i]?) h
  have hn : xs.length = n := by simpa using congrArg List.length h
  simpa [hi, hn ▸ hi] using this

variable [DecidableEq κ]

theorem find?_eq_some_iff (h : (xs.map key).Nodup) :
    xs.find? (fun y => key y == a) = some x ↔ x ∈ xs ∧ key x = a := by
  constructor
  · intro hf
    exact ⟨mem_of_find?_eq_some hf, by simpa using find?_some hf⟩
  · rintro ⟨hx, rfl⟩
    cases hf : xs.find? (fun y => key y == key x) with
    | none =>
      have := find?_eq_none.mp hf x hx
      simp at this
    | some y =>
      have hy : key y = key x := by simpa using find?_some hf
      rw [eq_of_key_eq h (mem_of_find?_eq_some hf) hx hy]

theorem mem_and_key_of_find? (hf : xs.find? (fun y => key y == a) = some x) : x ∈ xs ∧ key x = a :=
  ⟨mem_of_find?_eq_some hf, by simpa using find?_some hf⟩

/-- A write that keeps the keys is seen by the lookup of its key and by no other. -/
theorem find?_map_write (hf : ∀ x, key (f x) = key x) (xs : List α) (a b : κ) :
    (xs.map fun x => if key x = a then f x else x).find? (fun y => key y == b) =
      (xs.find? fun y => key y == b).map fun x => if b = a then f x else x := by
  induction xs with
  | nil => rfl
  | cons x xs ih =>
    have hkey : key (if key x = a then f x else x) = key x := by split <;> simp [hf]
    rw [map_cons, find?_cons, find?_cons, hkey]
    cases hb : key x == b with
    | true =>
      have : key x = b := by simpa using hb
      simp [this]
    | false => exact ih

theorem map_write_key (hf : ∀ x, key (f x) = key x) (xs : List α) (a : κ) :
    (xs.map fun x => if key x = a then f x else x).map key = xs.map key := by
  rw [map_map]
  apply map_congr_left
  intro x _
  simp only [Function.comp_apply]
  split <;> simp [hf]

/-- Any projection the write keeps is kept by the whole chain. -/
theorem map_write_of_eq {β : Type} {g : α → β} (hg : ∀ x, g (f x) = g x) (xs : List α) (a : κ) :
    (xs.map fun x => if key x = a then f x else x).map g = xs.map g := by
  rw [map_map]
  apply map_congr_left
  intro x _
  simp only [Function.comp_apply]
  split <;> simp [hg]

theorem map_write_eq_self (h : ∀ x ∈ xs, key x = a → f x = x) :
    (xs.map fun x => if key x = a then f x else x) = xs := by
  nth_rewrite 2 [← map_id xs]
  apply map_congr_left
  intro x hx
  split
  · rename_i hk; exact h x hx hk
  · rfl

/-- A write seen at the place of its record. -/
theorem map_write_split {ys : List α} (h : ((xs ++ x :: ys).map key).Nodup) :
    ((xs ++ x :: ys).map fun y => if key y = key x then f y else y) = xs ++ f x :: ys := by
  have hsame : ∀ {zs : List α}, (∀ z ∈ zs, key z ≠ key x) →
      (zs.map fun y => if key y = key x then f y else y) = zs := by
    intro zs hz
    exact map_write_eq_self fun z hzm hk => absurd hk (hz z hzm)
  rw [map_append, map_cons] at h
  have hd := nodup_append.mp h
  have hx := (nodup_cons.mp hd.2.1).1
  rw [map_append, map_cons, if_pos rfl, hsame, hsame]
  · intro z hz hk
    exact hx (hk ▸ mem_map_of_mem hz)
  · intro z hz hk
    exact hd.2.2 _ (mem_map_of_mem hz) _ mem_cons_self hk

/-- A chain without the record of a key, which is taken out at its place. -/
theorem filter_ne_split {ys : List α} (h : ((xs ++ x :: ys).map key).Nodup) :
    (xs ++ x :: ys).filter (fun y => key y != key x) = xs ++ ys := by
  rw [map_append, map_cons] at h
  obtain ⟨-, hys, hdisj⟩ := nodup_append.mp h
  have hx := (nodup_cons.mp hys).1
  rw [filter_append, filter_cons_of_neg (by simp)]
  congr 1
  · refine filter_eq_self.mpr fun y hy => bne_iff_ne.mpr fun hk => ?_
    exact hdisj _ (mem_map_of_mem hy) _ mem_cons_self hk
  · refine filter_eq_self.mpr fun y hy => bne_iff_ne.mpr fun hk => ?_
    exact hx (hk ▸ mem_map_of_mem hy)

theorem mem_write_iff {y : α} :
    y ∈ (xs.map fun x => if key x = a then f x else x) ↔
      (∃ x ∈ xs, key x = a ∧ y = f x) ∨ (y ∈ xs ∧ key y ≠ a) := by
  rw [mem_map]
  constructor
  · rintro ⟨x, hx, rfl⟩
    by_cases h : key x = a
    · exact .inl ⟨x, hx, h, by simp [h]⟩
    · exact .inr (by simp [h, hx])
  · rintro (⟨x, hx, h, rfl⟩ | ⟨hy, h⟩)
    · exact ⟨x, hx, by simp [h]⟩
    · exact ⟨y, hy, by simp [h]⟩

/-- The records without one key and then without others. -/
theorem filter_notMem_cons (xs : List α) (a : κ) (as : List κ) :
    (xs.filter fun x => key x ∉ a :: as) =
      (xs.filter fun x => key x != a).filter fun x => key x ∉ as := by
  rw [filter_filter]
  refine filter_congr fun x _ => ?_
  by_cases h : key x = a <;> simp [h]

/-- The first `n` records of a kind are taken out: these are all of the kind exactly
if none is behind them. -/
theorem filter_notMem_take_iff (h : (xs.map key).Nodup) (P : α → Bool) (n : Nat) :
    (xs.filter fun x => key x ∉ ((xs.take n).filter P).map key) = (xs.filter fun x => !P x) ↔
      ∀ x ∈ xs.drop n, P x = false := by
  have htake {x : α} (hx : x ∈ xs) : key x ∈ ((xs.take n).filter P).map key ↔
      x ∈ xs.take n ∧ P x = true := by
    rw [mem_map, ← mem_filter]
    refine ⟨fun ⟨y, hy, hkey⟩ => ?_, fun hmem => ⟨x, hmem, rfl⟩⟩
    rw [← eq_of_key_eq h (mem_of_mem_take (mem_of_mem_filter hy)) hx hkey]
    exact hy
  constructor
  · intro heq x hx
    by_contra hP
    rw [Bool.not_eq_false] at hP
    have hmem := mem_of_mem_drop hx
    -- a record of the kind is taken out, and so it is not behind the first ones
    have hgone : x ∉ xs.filter fun x => !P x := by simp [hP]
    rw [← heq, mem_filter, decide_eq_true_eq, htake hmem] at hgone
    have hnodup := h.of_map
    rw [← take_append_drop n xs, nodup_append] at hnodup
    refine hgone ⟨hmem, fun htaken => ?_⟩
    exact hnodup.2.2 x htaken.1 x hx rfl
  · intro hdrop
    refine filter_congr fun x hx => ?_
    rw [decide_not, Bool.not_inj_iff, Bool.eq_iff_iff, decide_eq_true_eq, htake hx]
    refine ⟨fun hmem => hmem.2, fun hP => ⟨?_, hP⟩⟩
    rw [← take_append_drop n xs] at hx
    refine (mem_append.mp hx).resolve_right fun hx => ?_
    rw [hdrop x hx] at hP
    cases hP

end Honyar.Keyed
