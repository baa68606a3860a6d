import Mathlib.Data.List.Basic
import Mathlib.Tactic.Common

/-!
# Calls that may end in a fault

A call gives a value or ends in one of several faults.  `Spares bad I x` says of a call that it
gives a value with `I` or ends in a fault that is not `bad`: the rules below carry it through a
sequence of calls and through a loop over a list.
-/

namespace Honyar.Faults

open List

variable {ε α β σ : Type} {bad : ε → Prop} {I : α → Prop} {J : β → Prop}
variable {x : Except ε α} {f : α → Except ε β} {a : α} {as : List α} {s s' : σ}

@[simp] theorem ok_bind (a : α) (f : α → Except ε β) : (Except.ok a >>= f) = f a := rfl

@[simp] theorem error_bind (e : ε) (f : α → Except ε β) :
    (Except.error e >>= f) = Except.error e := rfl

theorem bind_eq_ok {b : β} : (x >>= f) = .ok b ↔ ∃ a, x = .ok a ∧ f a = .ok b := by
  cases x with
  | error e => simp
  | ok a => simp

/-- A value with `I`, or a fault that is not bad. -/
def Spares (bad : ε → Prop) (I : α → Prop) : Except ε α → Prop
  | .ok a => I a
  | .error e => ¬ bad e

@[simp] theorem spares_ok : Spares bad I (.ok a) ↔ I a := Iff.rfl

@[simp] theorem spares_pure : Spares bad I (pure a : Except ε α) ↔ I a := Iff.rfl

@[simp] theorem spares_error {e : ε} : Spares bad I (.error e) ↔ ¬ bad e := Iff.rfl

namespace Spares

theorem bind (hx : Spares bad I x) (hf : ∀ a, x = .ok a → I a → Spares bad J (f a)) :
    Spares bad J (x >>= f) := by
  cases x with
  | error e => exact hx
  | ok a => exact hf a rfl hx

theorem mono {I' : α → Prop} (hx : Spares bad I x) (h : ∀ a, x = .ok a → I a → I' a) :
    Spares bad I' x := by
  cases x with
  | error e => exact hx
  | ok a => exact h a rfl hx

theorem of_ok (hx : Spares bad I x) (h : x = .ok a) : I a := by
  subst h
  exact hx

/-- Reading the elements of a list one by one. -/
theorem mapM (h : ∀ a ∈ as, Spares bad (fun _ => True) (f a)) :
    Spares bad (fun _ => True) (as.mapM f) := by
  induction as with
  | nil => exact trivial
  | cons a as ih =>
    obtain ⟨ha, has⟩ := forall_mem_cons.mp h
    rw [mapM_cons]
    exact ha.bind fun b _ _ => (ih has).bind fun bs _ _ => trivial

end Spares

/-- A loop whose passes leave the state alone. -/
theorem foldlM_idle {step : σ → α → Except ε σ} (h : ∀ a ∈ as, step s a = .ok s) :
    as.foldlM step s = .ok s := by
  induction as with
  | nil => rfl
  | cons a as ih =>
    obtain ⟨ha, has⟩ := forall_mem_cons.mp h
    rw [foldlM_cons, ha, ok_bind]
    exact ih has

/-- What every pass of a loop keeps is there at its end. -/
theorem foldlM_keeps {step : σ → α → Except ε σ} {K : σ → Prop}
    (hstep : ∀ a ∈ as, ∀ t t', K t → step t a = .ok t' → K t') (h : as.foldlM step s = .ok s')
    (hs : K s) : K s' := by
  induction as generalizing s with
  | nil => exact Except.ok.inj h ▸ hs
  | cons a as ih =>
    obtain ⟨ha, has⟩ := forall_mem_cons.mp hstep
    rw [foldlM_cons] at h
    obtain ⟨t, ht, h⟩ := bind_eq_ok.mp h
    exact ih has h (ha s t hs ht)

/-- What one pass brings about and the others keep is there at the end. -/
theorem foldlM_reaches {step : σ → α → Except ε σ} {K L : σ → Prop}
    (hK : ∀ a ∈ as, ∀ t t', K t → step t a = .ok t' → K t')
    (hL : ∀ a ∈ as, ∀ t t', L t → step t a = .ok t' → L t')
    (ha : ∀ t t', K t → step t a = .ok t' → L t') (hmem : a ∈ as) (h : as.foldlM step s = .ok s')
    (hs : K s) : L s' := by
  induction as generalizing s with
  | nil => cases hmem
  | cons b as ih =>
    obtain ⟨hKb, hKs⟩ := forall_mem_cons.mp hK
    have hLs := (forall_mem_cons.mp hL).2
    rw [foldlM_cons] at h
    obtain ⟨t, ht, hrest⟩ := bind_eq_ok.mp h
    rcases mem_cons.mp hmem with rfl | hmem
    · exact foldlM_keeps hLs hrest (ha s t hs ht)
    · exact ih hKs hLs hmem hrest (hKb s t hs ht)

/-- Every pass of a loop is made where a condition allows it. -/
def Along (step : σ → α → Except ε σ) (P : σ → α → Prop) : σ → List α → Prop
  | _, [] => True
  | s, a :: as => P s a ∧ ∀ s', step s a = .ok s' → Along step P s' as

namespace Along

variable {step : σ → α → Except ε σ} {P : σ → α → Prop} {K : σ → Prop}

theorem cons (h : step s a = .ok s') (ha : P s a) (has : Along step P s' as) :
    Along step P s (a :: as) :=
  ⟨ha, fun t ht => by rwa [Except.ok.inj (ht.symm.trans h)]⟩

/-- The loop over a list: what one pass keeps, all passes keep. -/
theorem spares (hstep : ∀ s a, K s → P s a → Spares bad K (step s a)) (hs : K s)
    (hp : Along step P s as) : Spares bad K (as.foldlM step s) := by
  induction as generalizing s with
  | nil => exact hs
  | cons a as ih => exact (hstep s a hs hp.1).bind fun t ht hk => ih hk (hp.2 t ht)

/-- A loop whose passes keep a condition and change what is seen of the state as another loop
does: so do all passes. -/
theorem refines {τ : Type} {view : σ → τ} {change : τ → α → τ} (hstep : ∀ s a, K s → P s a →
      Spares bad (fun s' => K s' ∧ view s' = change (view s) a) (step s a)) (hs : K s)
    (hp : Along step P s as) :
    Spares bad (fun s' => K s' ∧ view s' = as.foldl change (view s)) (as.foldlM step s) := by
  induction as generalizing s with
  | nil => exact ⟨hs, rfl⟩
  | cons a as ih =>
    refine (hstep s a hs hp.1).bind fun t ht ⟨hk, hview⟩ => ?_
    rw [foldl_cons, ← hview]
    exact ih hk (hp.2 t ht)

theorem mono {Q : σ → α → Prop} (h : ∀ s a, P s a → Q s a) (hp : Along step P s as) :
    Along step Q s as := by
  induction as generalizing s with
  | nil => trivial
  | cons a as ih => exact ⟨h s a hp.1, fun t ht => ih (hp.2 t ht)⟩

theorem of_prefix {bs : List α} (h : Along step P s as) (hbs : bs <+: as) : Along step P s bs := by
  induction bs generalizing s as with
  | nil => trivial
  | cons b bs ih =>
    obtain ⟨cs, rfl⟩ := hbs
    exact ⟨h.1, fun t ht => ih (h.2 t ht) (prefix_append bs cs)⟩

theorem of_forall (h : ∀ s, ∀ a ∈ as, P s a) : Along step P s as := by
  induction as generalizing s with
  | nil => trivial
  | cons a as ih =>
    exact ⟨h s a mem_cons_self, fun t _ => ih fun u b hb => h u b (mem_cons_of_mem a hb)⟩

end Along

end Honyar.Faults
