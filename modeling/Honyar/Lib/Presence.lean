import Mathlib.Data.List.Basic
import Mathlib.Data.Int.Notation

/-!
# A party that is watched

A party is known by the time of its last sign, which is zero while it counts as away, and by a kind
that gives the time it may be silent, if there is one.  It joins as one that is away; a sign is
taken down, and reported where it was away; and it is reported as lost, and counts as away, when it
has been silent for too long.  A history of such changes reports soundly.
-/

namespace Honyar.Presence

open Option List

variable {κ : Type*} (limit : κ → Option ℤ)

/-- What is known of the party: the time of its last sign, and its kind. -/
abbrev View (κ : Type*) := Option (ℤ × κ)

/-- A change at a time: whether it is a sign, what was known, what is reported, and what is known
then. -/
structure Event (κ : Type*) where
  time : ℤ
  sign : Bool
  before : View κ
  out : List Bool
  after : View κ

/-- What a change may do. -/
inductive Change (t : ℤ) : Bool → View κ → List Bool → View κ → Prop where
  /-- Nothing happens. -/
  | keep (v : View κ) : Change t false v [] v
  /-- A sign of a party that is not known. -/
  | unknown : Change t true none [] none
  /-- It joins, with a limit. -/
  | join (v : View κ) {k : κ} (hlimit : (limit k).isSome) : Change t false v [] (some (0, k))
  /-- It is lost. -/
  | lose {r l : ℤ} {k : κ} (hsign : r ≠ 0) (hlimit : limit k = some l) (hlate : r + l < t) :
      Change t false (some (r, k)) [false] (some (0, k))
  /-- It gives a sign, which is reported at least if it was away and has a limit. -/
  | sign {r : ℤ} {k : κ} {out : List Bool} (hout : out = [] ∨ out = [true])
      (hback : r = 0 → (limit k).isSome → out = [true]) :
      Change t true (some (r, k)) out (some (t, k))

/-- Changes one after the other. -/
inductive History (v₀ : View κ) : List (Event κ) → View κ → Prop where
  | nil : History v₀ [] v₀
  | snoc {es : List (Event κ)} {v v' : View κ} {t : ℤ} {s : Bool} {out : List Bool}
      (h : History v₀ es v) (hchange : Change limit t s v out v') :
      History v₀ (es ++ [⟨t, s, v, out, v'⟩]) v'

/-- The time of the last sign. -/
def lastSign (es : List (Event κ)) : Option ℤ := (es.filter (·.sign)).getLast?.map (·.time)

/-- All that was reported. -/
def reports (es : List (Event κ)) : List Bool := es.flatMap Event.out

/-- A loss is reported only of a party that has been silent for longer than its limit; between two
losses there is a report of a sign; and so is the first sign after a loss. -/
structure Sound (es : List (Event κ)) : Prop where
  stale : ∀ before e after, es = before ++ e :: after → false ∈ e.out →
    ∃ r k l, lastSign before = some r ∧ e.before = some (r, k) ∧ limit k = some l ∧ r + l < e.time
  alternate : ∀ a b c, reports es = a ++ false :: b ++ false :: c → true ∈ b
  revive : ∀ before e mid f after, es = before ++ e :: mid ++ f :: after → false ∈ e.out →
    (∀ g ∈ mid, g.sign = false) → f.sign = true → true ∈ f.out

variable {limit} {es : List (Event κ)} {e : Event κ}

/-- A list that is split, with its last element: either this is what it is split at, or it stands
behind. -/
theorem snoc_eq_split {α : Type*} {l before after : List α} {x a : α}
    (h : l ++ [x] = before ++ a :: after) :
    (after = [] ∧ l = before ∧ x = a) ∨ ∃ after', after = after' ++ [x] ∧
      l = before ++ a :: after' := by
  rcases eq_nil_or_concat after with rfl | ⟨after', y, rfl⟩
  · obtain ⟨hl, hx⟩ := append_inj' h rfl
    exact .inl ⟨rfl, hl, (List.cons.inj hx).1⟩
  · rw [concat_eq_append] at h ⊢
    rw [← cons_append, ← append_assoc] at h
    obtain ⟨hl, hx⟩ := append_inj' h rfl
    obtain rfl := (List.cons.inj hx).1
    exact .inr ⟨after', rfl, hl⟩

theorem lastSign_snoc (es : List (Event κ)) (e : Event κ) :
    lastSign (es ++ [e]) = if e.sign then some e.time else lastSign es := by
  rw [lastSign, filter_append]
  cases hs : e.sign <;> simp [hs, lastSign]

theorem reports_snoc (es : List (Event κ)) (e : Event κ) :
    reports (es ++ [e]) = reports es ++ e.out := by
  simp [reports]

/-- What holds of a history: it is sound; a time that is kept is that of the last sign, which was
reported if the party has a limit; and a party that was lost, and has given no sign since, counts as
away and has a limit. -/
structure Kept (limit : κ → Option ℤ) (es : List (Event κ)) (v : View κ) : Prop where
  sound : Sound limit es
  here : ∀ r k, v = some (r, k) → r ≠ 0 →
    lastSign es = some r ∧ ((limit k).isSome → (reports es).getLast? = some true)
  away : ∀ before e mid, es = before ++ e :: mid → false ∈ e.out → (∀ g ∈ mid, g.sign = false) →
    ∃ k, v = some (0, k) ∧ (limit k).isSome

variable {v v' : View κ} {t : ℤ} {s : Bool} {out : List Bool}

/-- A party joins, or nothing is known of it. -/
theorem Kept.nil (hv : ∀ r k, v = some (r, k) → r = 0) : Kept limit [] v where
  sound :=
    { stale := fun before e after h => by simp at h
      alternate := fun a b c h => by simp [reports] at h
      revive := fun before e mid f after h => by simp at h }
  here := fun r k hrk hne => absurd (hv r k hrk) hne
  away := fun before e mid h => by simp at h

theorem Kept.stale_snoc (h : Kept limit es v) (hchange : Change limit t s v out v') :
    ∀ before e after, es ++ [⟨t, s, v, out, v'⟩] = before ++ e :: after → false ∈ e.out →
      ∃ r k l, lastSign before = some r ∧ e.before = some (r, k) ∧ limit k = some l ∧
        r + l < e.time := by
  intro before e after heq hout
  rcases snoc_eq_split heq with ⟨-, rfl, rfl⟩ | ⟨after', -, heq'⟩
  · cases hchange with
    | keep => cases hout
    | unknown => cases hout
    | join => cases hout
    | lose hsign hlimit hlate => exact ⟨_, _, _, (h.here _ _ rfl hsign).1, rfl, hlimit, hlate⟩
    | sign hout' =>
      rcases hout' with rfl | rfl
      · cases hout
      · simp at hout
  · exact h.sound.stale before e after' heq' hout

theorem Kept.alternate_snoc (h : Kept limit es v) (hchange : Change limit t s v out v') :
    ∀ a b c, reports (es ++ [⟨t, s, v, out, v'⟩]) = a ++ false :: b ++ false :: c → true ∈ b := by
  intro a b c heq
  rw [reports_snoc] at heq
  have hquiet (hnil : out = []) : true ∈ b := by
    simp only [hnil, append_nil] at heq
    exact h.sound.alternate a b c heq
  have hlast {x : Bool} (hx : out = [x]) : (c = [] ∧ reports es = a ++ false :: b ∧ x = false) ∨
      true ∈ b := by
    simp only [hx] at heq
    rcases snoc_eq_split heq with ⟨hc, hreports, rfl⟩ | ⟨c', -, hreports⟩
    · exact .inl ⟨hc, hreports, rfl⟩
    · exact .inr (h.sound.alternate a b c' hreports)
  cases hchange with
  | keep => exact hquiet rfl
  | unknown => exact hquiet rfl
  | join => exact hquiet rfl
  | lose hsign hlimit hlate =>
    rcases hlast rfl with ⟨-, hreports, -⟩ | hmem
    · -- the last report before was that of a sign
      have htrue := (h.here _ _ rfl hsign).2 (by rw [hlimit]; rfl)
      rw [hreports] at htrue
      rcases eq_nil_or_concat b with rfl | ⟨b', x, rfl⟩
      · simp at htrue
      · rw [concat_eq_append] at htrue ⊢
        rw [← cons_append, ← append_assoc, getLast?_concat] at htrue
        exact mem_append_right _ (mem_singleton.mpr (some.inj htrue).symm)
    · exact hmem
  | sign hout' =>
    rcases hout' with hnil | htrue
    · exact hquiet hnil
    · rcases hlast htrue with ⟨-, -, hfalse⟩ | hmem
      · cases hfalse
      · exact hmem

theorem Kept.revive_snoc (h : Kept limit es v) (hchange : Change limit t s v out v') :
    ∀ before e mid f after, es ++ [⟨t, s, v, out, v'⟩] = before ++ e :: mid ++ f :: after →
      false ∈ e.out → (∀ g ∈ mid, g.sign = false) → f.sign = true → true ∈ f.out := by
  intro before e mid f after heq hout hmid hf
  rcases snoc_eq_split heq with ⟨-, hes, rfl⟩ | ⟨after', -, heq'⟩
  · obtain ⟨k, hv, hlimit⟩ := h.away before e mid hes hout hmid
    cases hchange with
    | keep => cases hf
    | unknown => cases hv
    | join => cases hf
    | lose => cases hf
    | sign hout' hback =>
      obtain ⟨rfl, rfl⟩ := Prod.mk.inj (some.inj hv)
      rw [hback rfl hlimit]
      exact mem_singleton_self true
  · exact h.sound.revive before e mid f after' heq' hout hmid hf

theorem Kept.here_snoc (h : Kept limit es v) (hchange : Change limit t s v out v') :
    ∀ r k, v' = some (r, k) → r ≠ 0 → lastSign (es ++ [⟨t, s, v, out, v'⟩]) = some r ∧
      ((limit k).isSome → (reports (es ++ [⟨t, s, v, out, v'⟩])).getLast? = some true) := by
  intro r k hv hr
  rw [lastSign_snoc, reports_snoc]
  cases hchange with
  | keep =>
    rw [append_nil]
    exact h.here r k hv hr
  | unknown => cases hv
  | join => exact absurd (Prod.mk.inj (some.inj hv)).1.symm hr
  | lose => exact absurd (Prod.mk.inj (some.inj hv)).1.symm hr
  | @sign r' k' out hout hback =>
    obtain ⟨rfl, rfl⟩ := Prod.mk.inj (some.inj hv)
    refine ⟨rfl, fun hlimit => ?_⟩
    rcases hout with rfl | rfl
    · have hr' : r' ≠ 0 := fun hzero => by cases hback hzero hlimit
      rw [append_nil]
      exact (h.here r' _ rfl hr').2 hlimit
    · exact getLast?_concat

theorem Kept.away_snoc (h : Kept limit es v) (hchange : Change limit t s v out v') :
    ∀ before e mid, es ++ [⟨t, s, v, out, v'⟩] = before ++ e :: mid → false ∈ e.out →
      (∀ g ∈ mid, g.sign = false) → ∃ k, v' = some (0, k) ∧ (limit k).isSome := by
  intro before e mid heq hout hmid
  rcases snoc_eq_split heq with ⟨-, -, rfl⟩ | ⟨mid', rfl, hes⟩
  · cases hchange with
    | keep => cases hout
    | unknown => cases hout
    | join => cases hout
    | lose hsign hlimit => exact ⟨_, rfl, by rw [hlimit]; rfl⟩
    | sign hout' =>
      rcases hout' with rfl | rfl
      · cases hout
      · simp at hout
  · have hsign : s = false := hmid _ (mem_append_right _ (mem_singleton_self _))
    obtain ⟨k, hv, hlimit⟩ := h.away before e mid' hes hout
      fun g hg => hmid g (mem_append_left _ hg)
    cases hchange with
    | keep => exact ⟨k, hv, hlimit⟩
    | unknown => cases hv
    | join _ hlimit' => exact ⟨_, rfl, hlimit'⟩
    | lose hne => exact absurd (Prod.mk.inj (some.inj hv)).1 hne
    | sign => cases hsign

theorem Kept.snoc (h : Kept limit es v) (hchange : Change limit t s v out v') :
    Kept limit (es ++ [⟨t, s, v, out, v'⟩]) v' where
  sound := ⟨h.stale_snoc hchange, h.alternate_snoc hchange, h.revive_snoc hchange⟩
  here := h.here_snoc hchange
  away := h.away_snoc hchange

/-- Every history of a party that is away, or not known, is sound. -/
theorem History.sound {v₀ : View κ} (hv₀ : ∀ r k, v₀ = some (r, k) → r = 0)
    (h : History limit v₀ es v) : Sound limit es := by
  have hkept : Kept limit es v := by
    induction h with
    | nil => exact .nil hv₀
    | snoc _ hchange ih => exact ih.snoc hchange
  exact hkept.sound

end Honyar.Presence
