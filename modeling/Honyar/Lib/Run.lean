import Mathlib.Data.List.Basic
import Mathlib.Tactic.Common

/-!
# Runs of a machine that may fail

A machine takes actions in a state: each step fails or leaves a new state and
emits some outputs.  `run` is a finite sequence of steps with all its outputs,
`Along` says that every step of a run was taken where a condition allowed it,
and the rules below carry an invariant over the state and everything emitted
so far from single steps to runs.
-/

namespace Honyar.Run

open Option List

variable {σ α ω : Type} (step : σ → α → Option (σ × List ω))
variable {s s' : σ} {a : α} {as : List α} {os log : List ω} {τ : Type} {R : σ → τ → Prop} {t : τ}

/-- All steps in order; the outputs are collected. -/
def run : σ → List α → Option (σ × List ω)
  | s, [] => some (s, [])
  | s, a :: as => do
    let (s', o) ← step s a
    let (s'', os) ← run s' as
    return (s'', o ++ os)

example (s : σ) : run step s [] = some (s, []) := by rw [run]

/-- Every step of the run meets `P` in the state it is taken in. -/
def Along (P : σ → α → Prop) : σ → List α → Prop
  | _, [] => True
  | s, a :: as => P s a ∧ ∀ x ∈ step s a, Along P x.1 as

example (P : σ → α → Prop) (s : σ) : Along step P s [] := by rw [Along]; trivial

instance decidableAlong (P : σ → α → Prop) [∀ s a, Decidable (P s a)] :
    (s : σ) → (as : List α) → Decidable (Along step P s as)
  | _, [] => inferInstanceAs (Decidable True)
  | s, a :: as =>
    have (x : σ × List ω) : Decidable (Along step P x.1 as) := decidableAlong P x.1 as
    inferInstanceAs (Decidable (P s a ∧ ∀ x ∈ step s a, Along step P x.1 as))

variable {step}

theorem run_cons {s'' : σ} :
    run step s (a :: as) = some (s'', os) ↔
      ∃ s' o os', step s a = some (s', o) ∧ run step s' as = some (s'', os') ∧ os = o ++ os' := by
  simp only [run, bind_eq_bind, bind_eq_some_iff, Option.pure_def,
    some.injEq, Prod.mk.injEq, Prod.exists]
  constructor
  · rintro ⟨s', o, hs, t, os', ht, rfl, rfl⟩
    exact ⟨s', o, os', hs, ht, rfl⟩
  · rintro ⟨s', o, os', hs, ht, rfl⟩
    exact ⟨s', o, hs, s'', os', ht, rfl, rfl⟩

theorem run_append {s'' : σ} {bs : List α} :
    run step s (as ++ bs) = some (s'', os) ↔
      ∃ s' oa ob, run step s as = some (s', oa) ∧ run step s' bs = some (s'', ob) ∧
        os = oa ++ ob := by
  induction as generalizing s os with
  | nil => simp [run]
  | cons a as ih =>
    simp only [cons_append, run_cons, ih]
    constructor
    · rintro ⟨t, o, os', hs, ⟨s', oa, ob, ha, hb, rfl⟩, rfl⟩
      exact ⟨s', o ++ oa, ob, ⟨t, o, oa, hs, ha, rfl⟩, hb, (append_assoc ..).symm⟩
    · rintro ⟨s', oa, ob, ⟨t, o, oa', hs, ha, rfl⟩, hb, rfl⟩
      exact ⟨t, o, oa' ++ ob, hs, ⟨s', oa', ob, ha, hb, rfl⟩, append_assoc ..⟩

theorem run_snoc :
    run step s (as ++ [a]) = some (s', os) ↔
      ∃ t oa o, run step s as = some (t, oa) ∧ step t a = some (s', o) ∧ os = oa ++ o := by
  rw [run_append]
  constructor
  · rintro ⟨t, oa, ob, ha, hb, rfl⟩
    obtain ⟨t', o, os', hstep, hnil, rfl⟩ := run_cons.mp hb
    simp only [run, some.injEq, Prod.mk.injEq] at hnil
    obtain ⟨rfl, rfl⟩ := hnil
    exact ⟨t, oa, o, ha, hstep, by rw [append_nil]⟩
  · rintro ⟨t, oa, o, ha, hstep, rfl⟩
    exact ⟨t, oa, o, ha, run_cons.mpr ⟨s', o, [], hstep, rfl, (append_nil o).symm⟩, rfl⟩

/-- Runs of two machines of which one emits what is left of the outputs of the other. -/
theorem run_filterMap {ω' : Type} (g : ω → Option ω') {step' : σ → α → Option (σ × List ω')}
    (h : ∀ s a, (step s a).map (Prod.map id (List.filterMap g)) = step' s a) (s : σ)
    (as : List α) :
    (run step s as).map (Prod.map id (List.filterMap g)) = run step' s as := by
  induction as generalizing s with
  | nil => rfl
  | cons a as ih =>
    rw [run, run, ← h]
    cases hs : step s a with
    | none => rfl
    | some r =>
      simp only [bind_eq_bind, bind_some, map_some, Prod.map, id_eq]
      rw [← ih]
      cases run step r.1 as with
      | none => rfl
      | some rs => simp [filterMap_append]

/-- The state a run leaves, whatever its outputs. -/
theorem run_map_fst (s : σ) (as : List α) :
    (run step s as).map Prod.fst = as.foldlM (fun s a => (step s a).map Prod.fst) s := by
  induction as generalizing s with
  | nil => rfl
  | cons a as ih =>
    rw [run, foldlM_cons]
    cases hs : step s a with
    | none => rfl
    | some r =>
      simp only [bind_eq_bind, bind_some, map_some]
      rw [← ih]
      cases run step r.1 as <;> rfl

/-- An output of a run is an output of one of its steps. -/
theorem mem_run_iff (h : run step s as = some (s', os)) {w : ω} :
    w ∈ os ↔ ∃ bs a cs t ot t' o, as = bs ++ a :: cs ∧ run step s bs = some (t, ot) ∧
      step t a = some (t', o) ∧ w ∈ o := by
  constructor
  · induction as generalizing s os with
    | nil =>
      simp only [run, some.injEq, Prod.mk.injEq] at h
      simp [← h.2]
    | cons a as ih =>
      obtain ⟨t, o, os', hs, ht, rfl⟩ := run_cons.mp h
      intro hw
      rcases mem_append.mp hw with hw | hw
      · exact ⟨[], a, as, s, [], t, o, rfl, rfl, hs, hw⟩
      · obtain ⟨bs, b, cs, u, ou, u', o', rfl, hu, hb, hw⟩ := ih ht hw
        exact ⟨a :: bs, b, cs, u, o ++ ou, u', o', rfl, run_cons.mpr ⟨t, o, ou, hs, hu, rfl⟩,
          hb, hw⟩
  · rintro ⟨bs, a, cs, t, ot, t', o, rfl, ht, ha, hw⟩
    obtain ⟨u, ou, oc, hu, hc, rfl⟩ := run_append.mp h
    rw [ht, some.injEq, Prod.mk.injEq] at hu
    obtain ⟨rfl, rfl⟩ := hu
    obtain ⟨u', o', os', ha', -, rfl⟩ := run_cons.mp hc
    rw [ha, some.injEq, Prod.mk.injEq] at ha'
    obtain ⟨-, rfl⟩ := ha'
    simp [hw]

variable {P : σ → α → Prop} {I : σ → List ω → Prop}

theorem along_append {bs : List α} :
    Along step P s (as ++ bs) ↔
      Along step P s as ∧ ∀ t o, run step s as = some (t, o) → Along step P t bs := by
  induction as generalizing s with
  | nil => simp [Along, run]
  | cons a as ih =>
    simp only [cons_append, Along, mem_def, Prod.forall, ih]
    constructor
    · rintro ⟨ha, hall⟩
      refine ⟨⟨ha, fun t o ht => (hall t o ht).1⟩, fun t o hrun => ?_⟩
      obtain ⟨u, o₁, o₂, hu, hrest, -⟩ := run_cons.mp hrun
      exact (hall u o₁ hu).2 t o₂ hrest
    · rintro ⟨⟨ha, hall⟩, hrun⟩
      refine ⟨ha, fun u o₁ hu => ⟨hall u o₁ hu, fun t o₂ hrest => ?_⟩⟩
      exact hrun t _ (run_cons.mpr ⟨u, o₁, o₂, hu, hrest, rfl⟩)

/-- A condition on the actions alone. -/
theorem along_of_forall {P : α → Prop} (h : ∀ a ∈ as, P a) (s : σ) :
    Along step (fun _ => P) s as := by
  induction as generalizing s with
  | nil => trivial
  | cons a as ih =>
    obtain ⟨ha, has⟩ := forall_mem_cons.mp h
    exact ⟨ha, fun x _ => ih has x.1⟩

/-- What every step that succeeds keeps, every run that succeeds keeps. -/
theorem run_preserves {I : σ → Prop} (hstep : ∀ s a s' o, I s → step s a = some (s', o) → I s')
    (hi : I s) (h : run step s as = some (s', os)) : I s' := by
  induction as generalizing s os with
  | nil =>
    simp only [run, some.injEq, Prod.mk.injEq] at h
    exact h.1 ▸ hi
  | cons a as ih =>
    obtain ⟨t, o, os', hs, ht, -⟩ := run_cons.mp h
    exact ih (hstep s a t o hi hs) ht

/-- The same for an invariant of the state and everything emitted so far, in a
run whose steps are allowed. -/
theorem run_invariant
    (hstep : ∀ s log a s' o, I s log → P s a → step s a = some (s', o) → I s' (log ++ o))
    (hi : I s log) (hp : Along step P s as) (h : run step s as = some (s', os)) :
    I s' (log ++ os) := by
  induction as generalizing s log os with
  | nil =>
    simp only [run, some.injEq, Prod.mk.injEq] at h
    obtain ⟨rfl, rfl⟩ := h
    simpa using hi
  | cons a as ih =>
    obtain ⟨t, o, os', hs, ht, rfl⟩ := run_cons.mp h
    rw [← append_assoc]
    exact ih (hstep s log a t o hi hp.1 hs) (hp.2 _ hs) ht

/-- And for an invariant of the state alone. -/
theorem run_preserves_along {I : σ → Prop}
    (hstep : ∀ s a s' o, I s → P s a → step s a = some (s', o) → I s') (hi : I s)
    (hp : Along step P s as) (h : run step s as = some (s', os)) : I s' :=
  @run_invariant σ α ω step s s' as os [] P (fun s _ => I s) (fun s _ a s' o => hstep s a s' o)
    hi hp h

/-- When moreover no step the condition allows fails, no such run fails. -/
theorem run_progress
    (hstep : ∀ s log a, I s log → P s a → ∃ s' o, step s a = some (s', o) ∧ I s' (log ++ o))
    (hi : I s log) (hp : Along step P s as) :
    ∃ s' os, run step s as = some (s', os) ∧ I s' (log ++ os) := by
  induction as generalizing s log with
  | nil => exact ⟨s, [], rfl, by simpa using hi⟩
  | cons a as ih =>
    obtain ⟨t, o, hs, ht⟩ := hstep s log a hi hp.1
    obtain ⟨s', os, hrun, hi'⟩ := ih ht (hp.2 _ hs)
    exact ⟨s', o ++ os, run_cons.mpr ⟨t, o, os, hs, hrun, rfl⟩, by
      rw [← append_assoc]; exact hi'⟩

/-- And for an invariant of the state alone. -/
theorem run_progress_along {I : σ → Prop}
    (hstep : ∀ s a, I s → P s a → ∃ s' o, step s a = some (s', o) ∧ I s') (hi : I s)
    (hp : Along step P s as) : ∃ s' os, run step s as = some (s', os) ∧ I s' :=
  @run_progress σ α ω step s as [] P (fun s _ => I s) (fun s _ a => hstep s a) hi hp

/-- Where one machine can do a step, another one does it with the same outputs: so do their
runs. -/
theorem refines {astep : τ → α → Option (τ × List ω)} {t' : τ}
    (hstep : ∀ s t a t' o, R s t → astep t a = some (t', o) →
      ∃ s', step s a = some (s', o) ∧ R s' t') (hr : R s t)
    (h : run astep t as = some (t', os)) : ∃ s', run step s as = some (s', os) ∧ R s' t' := by
  induction as generalizing s t os with
  | nil =>
    obtain ⟨rfl, rfl⟩ := Prod.mk.inj (some.inj h)
    exact ⟨s, rfl, hr⟩
  | cons a as ih =>
    obtain ⟨u, o, os', ha, has, rfl⟩ := run_cons.mp h
    obtain ⟨v, hv, hr'⟩ := hstep s t a u o hr ha
    obtain ⟨s', hs', hr''⟩ := ih hr' has
    exact ⟨s', run_cons.mpr ⟨v, o, os', hv, hs', rfl⟩, hr''⟩

/-- The other machine goes the same way, and shows it, exactly as long as the condition holds. -/
theorem refines_iff_along {astep : τ → α → Option (τ × List ω)} {Obs : σ → τ → Prop}
    {P : τ → α → Prop} {t' : τ} (hgives : ∀ s t, R s t → Obs s t)
    (hkeep : ∀ s t a t' o, R s t → astep t a = some (t', o) → P t a →
      ∃ s', step s a = some (s', o) ∧ R s' t')
    (hbad : ∀ s t a s' t' o, R s t → astep t a = some (t', o) → step s a = some (s', o) →
      Obs s' t' → P t a) (hr : R s t) (h : run astep t as = some (t', os)) :
    (∀ bs, bs <+: as → ∀ u ou, run astep t bs = some (u, ou) →
      ∃ v, run step s bs = some (v, ou) ∧ Obs v u) ↔ Along astep P t as := by
  induction as generalizing s t os with
  | nil =>
    refine iff_of_true (fun bs hbs u ou hrun => ?_) trivial
    obtain rfl := prefix_nil.mp hbs
    obtain ⟨rfl, rfl⟩ := Prod.mk.inj (some.inj hrun)
    exact ⟨s, rfl, hgives s t hr⟩
  | cons a as ih =>
    obtain ⟨u, o, os', ha, has, rfl⟩ := run_cons.mp h
    constructor
    · intro hall
      have hone : run astep t [a] = some (u, o) := by simp [run, ha]
      obtain ⟨v, hv, hobs⟩ := hall [a] ⟨as, rfl⟩ u o hone
      obtain ⟨v, o', os'', hv, hnil, hos⟩ := run_cons.mp hv
      obtain ⟨rfl, rfl⟩ := Prod.mk.inj (some.inj hnil)
      obtain rfl : o = o' := by simpa using hos
      have hp := hbad s t a v u o hr ha hv hobs
      obtain ⟨v', hv', hr'⟩ := hkeep s t a u o hr ha hp
      obtain rfl : v' = v := (Prod.mk.inj (some.inj (hv'.symm.trans hv))).1
      refine ⟨hp, fun x hx => ?_⟩
      obtain rfl := some.inj (ha.symm.trans hx)
      refine (ih hr' has).mp fun bs hbs w ow hrun => ?_
      obtain ⟨z, hz, hobs⟩ := hall (a :: bs) (cons_prefix_cons.mpr ⟨rfl, hbs⟩) w (o ++ ow)
        (run_cons.mpr ⟨u, o, ow, ha, hrun, rfl⟩)
      obtain ⟨v₁, o₁, os₁, hv₁, hz₁, hos⟩ := run_cons.mp hz
      obtain ⟨rfl, rfl⟩ := Prod.mk.inj (some.inj (hv'.symm.trans hv₁))
      obtain rfl := append_cancel_left hos
      exact ⟨z, hz₁, hobs⟩
    · rintro ⟨hp, hrest⟩ bs hbs w ow hrun
      obtain ⟨v, hv, hr'⟩ := hkeep s t a u o hr ha hp
      cases bs with
      | nil =>
        obtain ⟨rfl, rfl⟩ := Prod.mk.inj (some.inj hrun)
        exact ⟨s, rfl, hgives s t hr⟩
      | cons b bs =>
        obtain ⟨rfl, hbs'⟩ := cons_prefix_cons.mp hbs
        obtain ⟨u', o', ow', hu', hrun', rfl⟩ := run_cons.mp hrun
        obtain ⟨rfl, rfl⟩ := Prod.mk.inj (some.inj (ha.symm.trans hu'))
        obtain ⟨z, hz, hobs⟩ := (ih hr' has).mpr (hrest _ ha) bs hbs' w ow' hrun'
        exact ⟨z, run_cons.mpr ⟨v, o, ow', hv, hz, rfl⟩, hobs⟩

/-- A machine whose allowed steps are those of another one, with the same outputs, runs as it
does. -/
theorem simulates_along {astep : τ → α → Option (τ × List ω)}
    (hstep : ∀ s t a, R s t → P s a → ∃ s' t' o, step s a = some (s', o) ∧
      astep t a = some (t', o) ∧ R s' t') (hr : R s t) (hp : Along step P s as) :
    ∃ s' t' os, run step s as = some (s', os) ∧ run astep t as = some (t', os) ∧ R s' t' := by
  induction as generalizing s t with
  | nil => exact ⟨s, t, [], rfl, rfl, hr⟩
  | cons a as ih =>
    obtain ⟨s', t', o, hs, ht, hr'⟩ := hstep s t a hr hp.1
    obtain ⟨s'', t'', os, hrun, harun, hr''⟩ := ih hr' (hp.2 _ hs)
    exact ⟨s'', t'', o ++ os, run_cons.mpr ⟨s', o, os, hs, hrun, rfl⟩,
      run_cons.mpr ⟨t', o, os, ht, harun, rfl⟩, hr''⟩

/-- Where a step that can be taken from what the steps keep is one the condition allows, a run
goes through exactly when every step is allowed. -/
theorem run_isSome_iff_along {J : σ → Prop}
    (hstep : ∀ s a, J s → ((∃ r, step s a = some r) ↔ P s a))
    (hkeep : ∀ s a s' o, J s → step s a = some (s', o) → J s') (hj : J s) :
    (∃ r, run step s as = some r) ↔ Along step P s as := by
  induction as generalizing s with
  | nil => exact iff_of_true ⟨_, rfl⟩ trivial
  | cons a as ih =>
    rw [Along, ← hstep s a hj]
    constructor
    · rintro ⟨⟨s', os⟩, hrun⟩
      obtain ⟨t, o, os', hs, ht, -⟩ := run_cons.mp hrun
      refine ⟨⟨_, hs⟩, fun x hx => ?_⟩
      obtain rfl : (t, o) = x := some.inj (hs.symm.trans hx)
      exact (ih (hkeep s a t o hj hs)).mp ⟨_, ht⟩
    · rintro ⟨⟨⟨t, o⟩, hs⟩, hrest⟩
      obtain ⟨⟨s', os⟩, hrun⟩ := (ih (hkeep s a t o hj hs)).mpr (hrest _ hs)
      exact ⟨_, run_cons.mpr ⟨t, o, os, hs, hrun, rfl⟩⟩

/-- When the outputs of a step are good exactly where the condition allows the
step, those of a run are good exactly when all its steps are allowed. -/
theorem run_outputs_iff {Q : ω → Prop}
    (hstep : ∀ s a s' o, step s a = some (s', o) → ((∀ w ∈ o, Q w) ↔ P s a))
    (h : run step s as = some (s', os)) : (∀ w ∈ os, Q w) ↔ Along step P s as := by
  induction as generalizing s os with
  | nil =>
    simp only [run, some.injEq, Prod.mk.injEq] at h
    simp [← h.2, Along]
  | cons a as ih =>
    obtain ⟨t, o, os', hs, ht, rfl⟩ := run_cons.mp h
    rw [forall_mem_append, hstep s a t o hs, ih ht, Along]
    simp [hs]

/-- Where a step that succeeds leaves `I` exactly if the condition allows it, and
the allowed steps keep what the steps rely on, `I` holds after every prefix of
the actions exactly when every step is allowed. -/
theorem always_iff_along {J : σ → List ω → Prop}
    (hstep : ∀ s log a s' o, J s log → step s a = some (s', o) → (I s' (log ++ o) ↔ P s a))
    (hkeep : ∀ s log a s' o, J s log → P s a → step s a = some (s', o) → J s' (log ++ o))
    (hfail : ∀ s log a, J s log → step s a = none → P s a) (hj : J s log) (hi : I s log) :
    (∀ bs s' os, bs <+: as → run step s bs = some (s', os) → I s' (log ++ os)) ↔
      Along step P s as := by
  induction as generalizing s log with
  | nil =>
    refine ⟨fun _ => trivial, fun _ bs s' os hbs hrun => ?_⟩
    obtain rfl := prefix_nil.mp hbs
    simp only [run, some.injEq, Prod.mk.injEq] at hrun
    obtain ⟨rfl, rfl⟩ := hrun
    simpa using hi
  | cons a as ih =>
    constructor
    · intro hall
      have hnext : ∀ s' o, step s a = some (s', o) → I s' (log ++ o) := fun s' o hs =>
        hall [a] s' o (by simp) (run_cons.mpr ⟨s', o, [], hs, rfl, (append_nil o).symm⟩)
      have hp : P s a := by
        cases hs : step s a with
        | none => exact hfail s log a hj hs
        | some x => exact (hstep s log a x.1 x.2 hj hs).mp (hnext x.1 x.2 hs)
      refine ⟨hp, fun x hx => ?_⟩
      refine (ih (hkeep s log a x.1 x.2 hj hp hx) (hnext x.1 x.2 hx)).mp ?_
      intro bs s' os hbs hrun
      have := hall (a :: bs) s' (x.2 ++ os) ((prefix_cons_inj a).mpr hbs)
        (run_cons.mpr ⟨x.1, x.2, os, hx, hrun, rfl⟩)
      simpa [append_assoc] using this
    · rintro ⟨hp, hrest⟩ bs s' os hbs hrun
      cases bs with
      | nil =>
        simp only [run, some.injEq, Prod.mk.injEq] at hrun
        obtain ⟨rfl, rfl⟩ := hrun
        simpa using hi
      | cons b bs =>
        obtain ⟨rfl, hrest'⟩ := cons_prefix_cons.mp hbs
        obtain ⟨t, o, os', hs, ht, rfl⟩ := run_cons.mp hrun
        rw [← append_assoc]
        exact (ih (hkeep s log b t o hj hp hs) ((hstep s log b t o hj hs).mpr hp)).mpr
          (hrest _ hs) bs s' os' hrest' ht

/-- Where an allowed step goes through and keeps `J`, which gives `I`, and no other step goes
through and leaves `I`, every prefix of the actions goes through and leaves `I` exactly when every
step is allowed. -/
theorem goes_through_iff_along {I J : σ → Prop} (hgives : ∀ s, J s → I s)
    (hkeep : ∀ s a, J s → P s a → ∃ s' o, step s a = some (s', o) ∧ J s')
    (hbad : ∀ s a s' o, J s → step s a = some (s', o) → I s' → P s a) (hj : J s) :
    (∀ bs, bs <+: as → ∃ s' os, run step s bs = some (s', os) ∧ I s') ↔ Along step P s as := by
  induction as generalizing s with
  | nil =>
    refine iff_of_true (fun bs hbs => ?_) trivial
    obtain rfl := prefix_nil.mp hbs
    exact ⟨s, [], rfl, hgives s hj⟩
  | cons a as ih =>
    constructor
    · intro hall
      obtain ⟨s', os, hrun, hi⟩ := hall [a] (by simp)
      obtain ⟨t, o, os', hs, hrest, -⟩ := run_cons.mp hrun
      obtain ⟨rfl, -⟩ := Prod.mk.inj (some.inj hrest)
      have hp := hbad s a t o hj hs hi
      obtain ⟨u, w, hu, hju⟩ := hkeep s a hj hp
      obtain ⟨rfl, rfl⟩ := Prod.mk.inj (some.inj (hs.symm.trans hu))
      refine ⟨hp, fun x hx => ?_⟩
      obtain rfl : (t, o) = x := some.inj (hs.symm.trans hx)
      refine (ih hju).mp fun bs hbs => ?_
      obtain ⟨v, os, hrun, hi⟩ := hall (a :: bs) ((prefix_cons_inj a).mpr hbs)
      obtain ⟨t', o', os', hs', hrest, -⟩ := run_cons.mp hrun
      obtain ⟨rfl, -⟩ := Prod.mk.inj (some.inj (hs.symm.trans hs'))
      exact ⟨v, os', hrest, hi⟩
    · rintro ⟨hp, hrest⟩ bs hbs
      cases bs with
      | nil => exact ⟨s, [], rfl, hgives s hj⟩
      | cons b bs =>
        obtain ⟨rfl, hbs'⟩ := cons_prefix_cons.mp hbs
        obtain ⟨t, o, hs, hjt⟩ := hkeep s b hj hp
        obtain ⟨v, os, hrun, hi⟩ := (ih hjt).mpr (hrest _ hs) bs hbs'
        exact ⟨v, o ++ os, run_cons.mpr ⟨t, o, os, hs, hrun, rfl⟩, hi⟩

/-- A total machine `next` runs beside.  Where a step from a state that stands for one of it
leaves such a state exactly if the condition allows it, the states after all prefixes of a run
stand for those of `next` exactly when every step is allowed. -/
theorem tracks_iff_along (next : τ → α → τ)
    (hstep : ∀ s t a s' o, R s t → step s a = some (s', o) → (R s' (next t a) ↔ P s a)) (hr : R s t)
    (h : run step s as = some (s', os)) :
    (∀ bs u ou, bs <+: as → run step s bs = some (u, ou) → R u (bs.foldl next t)) ↔
      Along step P s as := by
  induction as generalizing s t os with
  | nil =>
    refine ⟨fun _ => trivial, fun _ bs u ou hbs hrun => ?_⟩
    obtain rfl := prefix_nil.mp hbs
    simp only [run, some.injEq, Prod.mk.injEq] at hrun
    obtain ⟨rfl, -⟩ := hrun
    exact hr
  | cons a as ih =>
    obtain ⟨v, o, os', hs, hrest, -⟩ := run_cons.mp h
    constructor
    · intro hall
      have hv : R v (next t a) :=
        hall [a] v o (by simp) (run_cons.mpr ⟨v, o, [], hs, rfl, (append_nil o).symm⟩)
      refine ⟨(hstep s t a v o hr hs).mp hv, fun x hx => ?_⟩
      obtain rfl : (v, o) = x := some.inj (hs.symm.trans hx)
      refine (ih hv hrest).mp fun bs u ou hbs hrun => ?_
      exact hall (a :: bs) u (o ++ ou) ((prefix_cons_inj a).mpr hbs)
        (run_cons.mpr ⟨v, o, ou, hs, hrun, rfl⟩)
    · rintro ⟨hp, hnext⟩ bs u ou hbs hrun
      cases bs with
      | nil =>
        simp only [run, some.injEq, Prod.mk.injEq] at hrun
        obtain ⟨rfl, -⟩ := hrun
        exact hr
      | cons b bs =>
        obtain ⟨rfl, hbs'⟩ := cons_prefix_cons.mp hbs
        obtain ⟨w, ow, ou', hw, hrun, -⟩ := run_cons.mp hrun
        rw [hs, some.injEq, Prod.mk.injEq] at hw
        obtain ⟨rfl, rfl⟩ := hw
        exact (ih ((hstep s t b v o hr hs).mpr hp) hrest).mpr (hnext _ hs) bs u ou' hbs' hrun

/-- A total machine `next` runs beside, and only `Obs` of the two is seen.  Where the steps that
the condition allows go through and keep `R`, and a step that it does not allow fails or leaves
something else than `Obs`, a run goes through with `Obs` after every prefix exactly when every
step is allowed. -/
theorem observed_iff_along (next : τ → α → τ) {Obs : σ → τ → Prop} {C : α → Prop}
    (hobs : ∀ s t, R s t → Obs s t)
    (hgood : ∀ s t a, R s t → C a → P s a → ∃ s' o, step s a = some (s', o) ∧ R s' (next t a))
    (hbad : ∀ s t a s' o, R s t → C a → step s a = some (s', o) → Obs s' (next t a) → P s a)
    (hr : R s t) (hc : ∀ a ∈ as, C a) :
    (∃ s' os, run step s as = some (s', os) ∧ ∀ bs u ou, bs <+: as →
        run step s bs = some (u, ou) → Obs u (bs.foldl next t)) ↔ Along step P s as := by
  induction as generalizing s t with
  | nil =>
    refine iff_of_true ⟨s, [], rfl, fun bs u ou hbs hrun => ?_⟩ trivial
    obtain rfl := prefix_nil.mp hbs
    obtain ⟨rfl, -⟩ := Prod.mk.inj (some.inj hrun)
    exact hobs s t hr
  | cons a as ih =>
    obtain ⟨ha, has⟩ := forall_mem_cons.mp hc
    constructor
    · rintro ⟨s', os, hrun, hall⟩
      obtain ⟨v, o, os', hs, hrest, -⟩ := run_cons.mp hrun
      have hp : P s a := hbad s t a v o hr ha hs
        (hall [a] v o (by simp) (run_cons.mpr ⟨v, o, [], hs, rfl, (append_nil o).symm⟩))
      refine ⟨hp, fun x hx => ?_⟩
      obtain rfl : (v, o) = x := some.inj (hs.symm.trans hx)
      obtain ⟨w, ow, hw, hrw⟩ := hgood s t a hr ha hp
      obtain ⟨rfl, -⟩ := Prod.mk.inj (some.inj (hs.symm.trans hw))
      refine (ih hrw has).mp ⟨s', os', hrest, fun bs u ou hbs hrun => ?_⟩
      exact hall (a :: bs) u (o ++ ou) ((prefix_cons_inj a).mpr hbs)
        (run_cons.mpr ⟨v, o, ou, hs, hrun, rfl⟩)
    · rintro ⟨hp, hnext⟩
      obtain ⟨v, o, hs, hrv⟩ := hgood s t a hr ha hp
      obtain ⟨s', os', hrun, hall⟩ := (ih hrv has).mpr (hnext _ hs)
      refine ⟨s', o ++ os', run_cons.mpr ⟨v, o, os', hs, hrun, rfl⟩, fun bs u ou hbs hrun => ?_⟩
      cases bs with
      | nil =>
        obtain ⟨rfl, -⟩ := Prod.mk.inj (some.inj hrun)
        exact hobs s t hr
      | cons b bs =>
        obtain ⟨rfl, hbs'⟩ := cons_prefix_cons.mp hbs
        obtain ⟨w, ow, ou', hw, hrun, -⟩ := run_cons.mp hrun
        obtain ⟨rfl, -⟩ := Prod.mk.inj (some.inj (hs.symm.trans hw))
        exact hall bs u ou' hbs' hrun

/-- Two conditions that say the same of every step from a state where `R` holds, and keep it
there, say the same of a run. -/
theorem along_iff_along {Q : σ → α → Prop} {R : σ → Prop}
    (hstep : ∀ s a s' o, R s → step s a = some (s', o) → (Q s a ↔ P s a))
    (hkeep : ∀ s a s' o, R s → Q s a → step s a = some (s', o) → R s') (hr : R s)
    (h : run step s as = some (s', os)) : Along step Q s as ↔ Along step P s as := by
  induction as generalizing s os with
  | nil => exact Iff.rfl
  | cons a as ih =>
    obtain ⟨t, o, os', hs, hrest, -⟩ := run_cons.mp h
    have hnext : ∀ C : σ → Prop, (∀ x ∈ step s a, C x.1) ↔ C t := fun C => by simp [hs]
    rw [Along, Along, hnext fun t => Along step Q t as, hnext fun t => Along step P t as,
      hstep s a t o hr hs]
    exact and_congr_right fun hp =>
      ih (hkeep s a t o hr ((hstep s a t o hr hs).mpr hp) hs) hrest

/-- The same where a third condition allows the steps, some of which may fail. -/
theorem along_iff_along_of {C Q : σ → α → Prop} {R : σ → Prop}
    (hstep : ∀ s a, R s → C s a → (Q s a ↔ P s a))
    (hkeep : ∀ s a s' o, R s → C s a → P s a → step s a = some (s', o) → R s') (hr : R s)
    (hc : Along step C s as) : Along step Q s as ↔ Along step P s as := by
  induction as generalizing s with
  | nil => exact Iff.rfl
  | cons a as ih =>
    rw [Along, Along, hstep s a hr hc.1]
    exact and_congr_right fun hp => forall₂_congr fun x hx =>
      ih (hkeep s a x.1 x.2 hr hc.1 hp hx) (hc.2 x hx)

/-! ## States that no run tells apart -/

variable (step) in
/-- Every sequence of actions fails from both states, or emits the same from both. -/
def Alike (s t : σ) : Prop :=
  ∀ as, (run step s as).map Prod.snd = (run step t as).map Prod.snd

theorem Alike.refl (s : σ) : Alike step s s := fun _ => rfl

/-- One action emits the same. -/
theorem Alike.emits {t : σ} (h : Alike step s t) (a : α) :
    (step s a).map Prod.snd = (step t a).map Prod.snd := by
  have hone (u : σ) : (run step u [a]).map Prod.snd = (step u a).map Prod.snd := by
    rw [run]
    cases step u a with
    | none => rfl
    | some r => exact congrArg some (append_nil r.2)
  rw [← hone, ← hone]
  exact h [a]

/-- And it leaves states that no run tells apart. -/
theorem Alike.next {t t' : σ} {o o' : List ω} (h : Alike step s t) (hs : step s a = some (s', o))
    (ht : step t a = some (t', o')) : Alike step s' t' := by
  have hemits := h.emits a
  rw [hs, ht] at hemits
  obtain rfl : o = o' := some.inj hemits
  have hcons {u u' : σ} (hu : step u a = some (u', o)) (as : List α) :
      (run step u (a :: as)).map Prod.snd = ((run step u' as).map Prod.snd).map (o ++ ·) := by
    rw [run, hu]
    cases hrun : run step u' as <;> simp [hrun]
  intro as
  have hrest := h (a :: as)
  rw [hcons hs, hcons ht] at hrest
  exact map_injective (append_right_injective o) hrest

end Honyar.Run
