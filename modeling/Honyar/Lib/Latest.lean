import Honyar.Lib.Faults

/-!
# The latest write

A loop over writes of which each one sets what it is about: in the end there is the latest value,
or the one from before where no write is about it.
-/

namespace Honyar

open Faults

variable {ε σ α ν : Type}

/-- The latest of some writes, among those that hit. -/
def latest (hit : α → Bool) (as : List α) : Option α := (as.filter hit).getLast?

@[simp] theorem latest_nil (hit : α → Bool) : latest hit [] = none := rfl

theorem latest_cons_of_pos {hit : α → Bool} {a : α} (h : hit a = true) (as : List α) :
    latest hit (a :: as) = some ((latest hit as).getD a) := by
  rw [latest, List.filter_cons_of_pos h, List.getLast?_cons, latest]

theorem latest_cons_of_neg {hit : α → Bool} {a : α} (h : ¬ hit a = true) (as : List α) :
    latest hit (a :: as) = latest hit as := by
  rw [latest, List.filter_cons_of_neg h, latest]

/-- What the latest write gives, or what was there before. -/
def latestValue (hit : α → Bool) (val : α → ν) (as : List α) (old : ν) : ν :=
  ((latest hit as).map val).getD old

theorem latestValue_cons {hit : α → Bool} (val : α → ν) (a : α) (as : List α) (old : ν) :
    latestValue hit val (a :: as) old =
      latestValue hit val as (if hit a = true then val a else old) := by
  unfold latestValue
  by_cases h : hit a = true
  · rw [latest_cons_of_pos h, if_pos h]
    cases latest hit as <;> rfl
  · rw [latest_cons_of_neg h, if_neg h]

/-- A loop whose passes each set what they hit gives the latest value. -/
theorem foldlM_latest {step : σ → α → Except ε σ} {K : σ → Prop} (get : σ → ν) {hit : α → Bool}
    {val : α → ν} {s s' : σ} {as : List α}
    (hstep : ∀ a ∈ as, ∀ t t', K t → step t a = .ok t' →
      K t' ∧ get t' = if hit a = true then val a else get t)
    (h : as.foldlM step s = .ok s') (hs : K s) : get s' = latestValue hit val as (get s) := by
  induction as generalizing s with
  | nil => exact Except.ok.inj h ▸ rfl
  | cons a as ih =>
    obtain ⟨ha, has⟩ := List.forall_mem_cons.mp hstep
    rw [List.foldlM_cons] at h
    obtain ⟨t, ht, h⟩ := bind_eq_ok.mp h
    obtain ⟨hK, hget⟩ := ha s t hs ht
    rw [latestValue_cons, ← hget]
    exact ih has h hK

end Honyar
