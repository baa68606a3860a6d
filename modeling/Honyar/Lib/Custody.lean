import Mathlib.Data.List.Nodup
import Mathlib.Data.List.Perm.Subperm
import Mathlib.Logic.Function.Basic
import Mathlib.Tactic.Common

/-!
# Custody of what is to be released once

Tokens are issued one after another, wait at places and are released.  The books are right when a
token that waits was not released and one that waits nowhere was released once.  What is lost
from a place without a release, or issued to none, makes them wrong.
-/

namespace Honyar

open List

/-- The tokens that wait at each place, the number of tokens issued, and the releases. -/
structure Custody (ι : Type) where
  held : ι → List Nat
  issued : Nat
  released : List Nat

namespace Custody

variable {ι : Type} {c : Custody ι} {i : ι} {k : Nat} {xs : List Nat}

/-- The token waits somewhere. -/
def Waits (c : Custody ι) (k : Nat) : Prop := ∃ i, k ∈ c.held i

/-- The books are right. -/
def Accounted (c : Custody ι) : Prop :=
  ∀ k < c.issued, (c.Waits k → c.released.count k = 0) ∧ (¬ c.Waits k → c.released.count k = 1)

/-- No token waits twice, and all tokens were issued. -/
structure Sound (c : Custody ι) : Prop where
  nodup : ∀ i, (c.held i).Nodup
  apart : ∀ i j k, k ∈ c.held i → k ∈ c.held j → i = j
  held_lt : ∀ i, ∀ k ∈ c.held i, k < c.issued
  released_lt : ∀ k ∈ c.released, k < c.issued

/-! ## The operations -/

/-- A token is issued. -/
def issue (c : Custody ι) : Custody ι := { c with issued := c.issued + 1 }

/-- A token is released. -/
def release (c : Custody ι) (k : Nat) : Custody ι := { c with released := c.released ++ [k] }

/-- The tokens of a place are replaced. -/
def hold [DecidableEq ι] (c : Custody ι) (i : ι) (xs : List Nat) : Custody ι :=
  { c with held := Function.update c.held i xs }

/-! ## Issuing -/

theorem Sound.issued_notMem_held (hc : c.Sound) (i : ι) : c.issued ∉ c.held i :=
  fun h => Nat.lt_irrefl _ (hc.held_lt i _ h)

theorem Sound.not_waits_issued (hc : c.Sound) : ¬ c.Waits c.issued :=
  fun ⟨i, h⟩ => hc.issued_notMem_held i h

theorem Sound.count_issued (hc : c.Sound) : c.released.count c.issued = 0 :=
  count_eq_zero.mpr fun h => Nat.lt_irrefl _ (hc.released_lt _ h)

theorem Sound.issue (hc : c.Sound) : c.issue.Sound where
  nodup := hc.nodup
  apart := hc.apart
  held_lt i k hk := Nat.lt_succ_of_lt (hc.held_lt i k hk)
  released_lt k hk := Nat.lt_succ_of_lt (hc.released_lt k hk)

/-- A token that is issued to no place is lost. -/
theorem Sound.not_accounted_issue (hc : c.Sound) : ¬ c.issue.Accounted := fun h => by
  have hone := (h c.issued (Nat.lt_succ_self _)).2 hc.not_waits_issued
  rw [show c.issue.released = c.released from rfl, hc.count_issued] at hone
  cases hone

theorem Sound.issue_release (hc : c.Sound) : (c.issue.release c.issued).Sound where
  nodup := hc.nodup
  apart := hc.apart
  held_lt := hc.issue.held_lt
  released_lt k hk := by
    rcases mem_append.mp hk with hk | hk
    · exact hc.issue.released_lt k hk
    · rw [mem_singleton.mp hk]
      exact Nat.lt_succ_self _

/-- A token that is released at once is accounted for. -/
theorem Accounted.issue_release (hc : c.Sound) (h : c.Accounted) :
    (c.issue.release c.issued).Accounted := by
  intro k hk
  show (c.Waits k → (c.released ++ [c.issued]).count k = 0) ∧
    (¬ c.Waits k → (c.released ++ [c.issued]).count k = 1)
  rw [count_append]
  rcases Nat.lt_succ_iff_lt_or_eq.mp hk with hk | rfl
  · have hne : c.issued ≠ k := Nat.ne_of_gt hk
    rw [count_singleton, beq_eq_false_iff_ne.mpr hne]
    exact h k hk
  · rw [hc.count_issued, count_singleton_self]
    exact ⟨fun hw => absurd hw hc.not_waits_issued, fun _ => rfl⟩

/-! ## Places -/

section

variable [DecidableEq ι]

@[simp] theorem held_hold_self : (c.hold i xs).held i = xs := Function.update_self ..

theorem held_hold_of_ne {j : ι} (h : j ≠ i) : (c.hold i xs).held j = c.held j :=
  Function.update_of_ne h ..

theorem waits_hold_iff : (c.hold i xs).Waits k ↔ k ∈ xs ∨ ∃ j, j ≠ i ∧ k ∈ c.held j := by
  constructor
  · rintro ⟨j, hj⟩
    by_cases hji : j = i
    · subst hji
      rw [held_hold_self] at hj
      exact .inl hj
    · rw [held_hold_of_ne hji] at hj
      exact .inr ⟨j, hji, hj⟩
  · rintro (h | ⟨j, hji, hj⟩)
    · exact ⟨i, by rwa [held_hold_self]⟩
    · exact ⟨j, by rwa [held_hold_of_ne hji]⟩

@[simp] theorem hold_held (c : Custody ι) (i : ι) : c.hold i (c.held i) = c := by
  rw [hold, Function.update_eq_self]

/-- A place may get tokens that no other has. -/
theorem Sound.hold (hc : c.Sound) (hnodup : xs.Nodup) (hlt : ∀ k ∈ xs, k < c.issued)
    (happart : ∀ k ∈ xs, ∀ j, j ≠ i → k ∉ c.held j) : (c.hold i xs).Sound where
  nodup j := by
    by_cases hji : j = i
    · rwa [hji, held_hold_self]
    · rw [held_hold_of_ne hji]
      exact hc.nodup j
  apart j l k hj hl := by
    by_cases hji : j = i <;> by_cases hli : l = i
    · rw [hji, hli]
    · rw [hji, held_hold_self] at hj
      rw [held_hold_of_ne hli] at hl
      exact absurd hl (happart k hj l hli)
    · rw [hli, held_hold_self] at hl
      rw [held_hold_of_ne hji] at hj
      exact absurd hj (happart k hl j hji)
    · rw [held_hold_of_ne hji] at hj
      rw [held_hold_of_ne hli] at hl
      exact hc.apart j l k hj hl
  held_lt j k hk := by
    by_cases hji : j = i
    · rw [hji, held_hold_self] at hk
      exact hlt k hk
    · rw [held_hold_of_ne hji] at hk
      exact hc.held_lt j k hk
  released_lt := hc.released_lt

theorem Sound.hold_sublist (hc : c.Sound) (hxs : xs.Sublist (c.held i)) : (c.hold i xs).Sound :=
  hc.hold ((hc.nodup i).sublist hxs) (fun k hk => hc.held_lt i k (hxs.subset hk))
    fun k hk _ hji hj => hji (hc.apart _ _ k hj (hxs.subset hk))

theorem Sound.issue_hold (hc : c.Sound)
    (i : ι) : (c.issue.hold i (c.held i ++ [c.issued])).Sound := by
  refine hc.issue.hold ?_ ?_ ?_
  · rw [nodup_append]
    refine ⟨hc.nodup i, nodup_singleton _, ?_⟩
    rintro k hk l hl rfl
    exact hc.issued_notMem_held i (mem_singleton.mp hl ▸ hk)
  · intro k hk
    rcases mem_append.mp hk with hk | hk
    · exact hc.issue.held_lt i k hk
    · rw [mem_singleton.mp hk]
      exact Nat.lt_succ_self _
  · intro k hk j hji hj
    rcases mem_append.mp hk with hk | hk
    · exact hji (hc.apart j i k hj hk)
    · exact hc.issued_notMem_held j (mem_singleton.mp hk ▸ hj)

/-- A token that is put to a place is accounted for. -/
theorem Accounted.issue_hold (hc : c.Sound) (h : c.Accounted) (i : ι) :
    (c.issue.hold i (c.held i ++ [c.issued])).Accounted := by
  intro k hk
  show (_ → c.released.count k = 0) ∧ (_ → c.released.count k = 1)
  rw [waits_hold_iff, mem_append, mem_singleton]
  rcases Nat.lt_succ_iff_lt_or_eq.mp hk with hk | rfl
  · have hsame : ((k ∈ c.held i ∨ k = c.issued) ∨ ∃ j, j ≠ i ∧ k ∈ c.held j) ↔ c.Waits k := by
      constructor
      · rintro ((hi | rfl) | ⟨j, -, hj⟩)
        · exact ⟨i, hi⟩
        · exact absurd hk (Nat.lt_irrefl _)
        · exact ⟨j, hj⟩
      · rintro ⟨j, hj⟩
        by_cases hji : j = i
        · exact .inl (.inl (hji ▸ hj))
        · exact .inr ⟨j, hji, hj⟩
    exact ⟨fun hw => (h k hk).1 (hsame.mp hw), fun hw => (h k hk).2 fun hk => hw (hsame.mpr hk)⟩
  · exact ⟨fun _ => hc.count_issued, fun hw => absurd (.inl (.inr rfl)) hw⟩

/-- Tokens that leave a place without a release are not accounted for. -/
theorem Accounted.hold_iff (hc : c.Sound) (h : c.Accounted) (hxs : xs.Sublist (c.held i)) :
    (c.hold i xs).Accounted ↔ xs = c.held i := by
  constructor
  · intro h'
    by_contra hne
    obtain ⟨k, hk, hnot⟩ : ∃ k ∈ c.held i, k ∉ xs := by
      by_contra hall
      have hsub : c.held i ⊆ xs := fun k hk => by_contra fun hnot => hall ⟨k, hk, hnot⟩
      exact hne (hxs.eq_of_length_le ((hc.nodup i).subperm hsub).length_le)
    have hlt := hc.held_lt i k hk
    have hzero := (h k hlt).1 ⟨i, hk⟩
    have hone := (h' k hlt).2 fun hw => by
      rcases waits_hold_iff.mp hw with hw | ⟨j, hji, hj⟩
      · exact hnot hw
      · exact hji (hc.apart j i k hj hk)
    rw [show (c.hold i xs).released = c.released from rfl, hzero] at hone
    cases hone
  · rintro rfl
    rwa [hold_held]

theorem Sound.hold_release (hc : c.Sound) {as bs : List Nat} (hi : c.held i = as ++ k :: bs) :
    ((c.hold i (as ++ bs)).release k).Sound := by
  have hmem : k ∈ c.held i := by
    rw [hi]
    exact mem_append_right _ mem_cons_self
  have hsub : (as ++ bs).Sublist (c.held i) := by
    rw [hi]
    exact (List.Sublist.refl as).append (sublist_cons_self k bs)
  have hhold := hc.hold_sublist hsub
  refine ⟨hhold.nodup, hhold.apart, hhold.held_lt, fun l hl => ?_⟩
  rcases mem_append.mp hl with hl | hl
  · exact hc.released_lt l hl
  · rw [mem_singleton.mp hl]
    exact hc.held_lt i k hmem

/-- A token that leaves its place with a release is accounted for. -/
theorem Accounted.hold_release (hc : c.Sound) (h : c.Accounted) {as bs : List Nat}
    (hi : c.held i = as ++ k :: bs) : ((c.hold i (as ++ bs)).release k).Accounted := by
  have hmem : k ∈ c.held i := by
    rw [hi]
    exact mem_append_right _ mem_cons_self
  have hnot : k ∉ as ++ bs := by
    have hnodup := hc.nodup i
    rw [hi, nodup_middle] at hnodup
    exact (nodup_cons.mp hnodup).1
  intro l hl
  show ((c.hold i (as ++ bs)).Waits l → (c.released ++ [k]).count l = 0) ∧
    (¬ (c.hold i (as ++ bs)).Waits l → (c.released ++ [k]).count l = 1)
  rw [waits_hold_iff, count_append]
  by_cases hlk : l = k
  · subst hlk
    rw [(h l hl).1 ⟨i, hmem⟩, count_singleton_self]
    refine ⟨?_, fun _ => rfl⟩
    rintro (hw | ⟨j, hji, hj⟩)
    · exact absurd hw hnot
    · exact absurd (hc.apart j i l hj hmem) hji
  · rw [count_singleton, beq_eq_false_iff_ne.mpr (Ne.symm hlk)]
    have hsame : (l ∈ as ++ bs ∨ ∃ j, j ≠ i ∧ l ∈ c.held j) ↔ c.Waits l := by
      constructor
      · rintro (hw | ⟨j, -, hj⟩)
        · refine ⟨i, ?_⟩
          rw [hi, mem_append, mem_cons]
          exact (mem_append.mp hw).imp_right .inr
        · exact ⟨j, hj⟩
      · rintro ⟨j, hj⟩
        by_cases hji : j = i
        · rw [hji, hi, mem_append, mem_cons] at hj
          exact .inl (mem_append.mpr (hj.imp_right fun h => h.resolve_left hlk))
        · exact .inr ⟨j, hji, hj⟩
    exact ⟨fun hw => (h l hl).1 (hsame.mp hw), fun hw => (h l hl).2 fun hl => hw (hsame.mpr hl)⟩

end

end Custody

end Honyar
