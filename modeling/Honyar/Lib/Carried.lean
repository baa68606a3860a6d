import Mathlib.Data.List.Infix
import Mathlib.Logic.Function.Basic
import Mathlib.Tactic.Common

/-!
# Elements that leave out their key

Elements are worked through in a loop, each changing the entry of one key.  An element that
leaves its key out is about the key the loop still holds, which is that of the last element to
have one.  `loop` is this loop, `alone` takes an element by itself, and `OnOwn` is the condition
on the elements under which the one does what the other does element by element.
-/

namespace Honyar.Carried

open Option List

variable {κ ε α : Type} (own : α → Option (Option κ)) (change : κ → ε → α → Option ε)
variable {k k₀ : κ} {a : α} {m : κ → ε} {as : List α}

/-- The key an element is about, if the key that is held is `k`. -/
def keyOf (k : κ) (a : α) : Option κ := (own a).map fun o => o.getD k

variable {own} in
theorem keyOf_of_own {o : Option κ} (h : own a = some o) : keyOf own k a = some (o.getD k) := by
  rw [keyOf, h, map_some]

variable [DecidableEq κ]

/-- An element changes the entry of a key. -/
def act (m : κ → ε) (k : κ) (a : α) : Option (κ → ε) :=
  (change k (m k) a).map (Function.update m k)

/-- The elements in order, with the key that is held at the start. -/
def loop : κ → (κ → ε) → List α → Option (κ → ε)
  | _, m, [] => some m
  | k, m, a :: as => do
    let k ← keyOf own k a
    loop k (← act change m k a) as

/-- An element by itself. -/
def alone (k₀ : κ) (m : κ → ε) (a : α) : Option (κ → ε) := do
  act change m (← keyOf own k₀ a) a

/-- An element changes neither of two entries, or is undefined about both. -/
def Settled (m : κ → ε) (k j : κ) (a : α) : Prop :=
  change k (m k) a = none ∧ change j (m j) a = none ∨
    change k (m k) a = some (m k) ∧ change j (m j) a = some (m j)

/-- No element without a key changes the entry of the key that is held, or would change that of
the key held at the start, while these differ. -/
def OnOwn (k₀ : κ) : κ → (κ → ε) → List α → Prop
  | _, _, [] => True
  | k, m, a :: as =>
    (own a = some none → k ≠ k₀ → Settled change m k k₀ a) ∧
      ∀ k' ∈ keyOf own k a, ∀ m' ∈ act change m k' a, OnOwn k₀ k' m' as

variable {own change}

/-- Changing the entries of two keys gives the same only where both stay. -/
theorem act_eq_act_iff {j : κ} (h : k ≠ j) :
    act change m k a = act change m j a ↔ Settled change m k j a := by
  unfold act Settled
  cases hk : change k (m k) a with
  | none => cases hj : change j (m j) a <;> simp
  | some e =>
    cases hj : change j (m j) a with
    | none => simp
    | some e' =>
      simp only [map_some, some.injEq, reduceCtorEq, false_and, false_or]
      constructor
      · intro heq
        have he : e = m k := by simpa [h] using congrFun heq k
        have he' : m j = e' := by simpa [h.symm] using congrFun heq j
        exact ⟨he, he'.symm⟩
      · rintro ⟨rfl, rfl⟩
        rw [Function.update_eq_self, Function.update_eq_self]

/-- In the loop an element does what it does by itself. -/
theorem step_iff :
    (keyOf own k a).bind (fun k => act change m k a) = alone own change k₀ m a ↔
      (own a = some none → k ≠ k₀ → Settled change m k k₀ a) := by
  unfold alone
  cases ho : own a with
  | none => simp [keyOf, ho]
  | some o =>
    rw [keyOf_of_own ho, keyOf_of_own ho]
    cases o with
    | some j => simp
    | none =>
      simp only [getD_none, bind_eq_bind, bind_some, forall_const]
      by_cases hk : k = k₀
      · simp [hk]
      · rw [act_eq_act_iff hk]
        simp [hk]

theorem loop_cons :
    loop own change k m (a :: as) =
      (keyOf own k a).bind fun k => (act change m k a).bind fun m => loop own change k m as :=
  rfl

/-- Elements that all have a key change their own entries. -/
theorem onOwn_of_forall (h : ∀ a ∈ as, own a ≠ some none) : OnOwn own change k₀ k m as := by
  induction as generalizing k m with
  | nil => trivial
  | cons a as ih =>
    obtain ⟨ha, has⟩ := forall_mem_cons.mp h
    exact ⟨fun hnone => absurd hnone ha, fun k' _ m' _ => ih has⟩

/-- The loop does, after each of the elements, what taking them one by one does, exactly when no
element without a key changes an entry that is not its own. -/
theorem loop_eq_alone_iff :
    (∀ front, front <+: as →
      loop own change k m front = front.foldlM (alone own change k₀) m) ↔
        OnOwn own change k₀ k m as := by
  induction as generalizing k m with
  | nil =>
    constructor
    · exact fun _ => trivial
    · intro _ front hfront
      rw [prefix_nil.mp hfront]
      rfl
  | cons a as ih =>
    have hone : loop own change k m [a] =
        (keyOf own k a).bind fun k => act change m k a := by
      simp only [loop, bind_eq_bind, bind_fun_some]
    constructor
    · intro h
      have hstep := (h [a] (prefix_append [a] as)).symm
      rw [hone, foldlM_cons] at hstep
      simp only [foldlM_nil, bind_pure] at hstep
      refine ⟨step_iff.mp hstep.symm, fun k' hk' m' hm' => ih.mp fun front hfront => ?_⟩
      have hfull := h (a :: front) (cons_prefix_cons.mpr ⟨rfl, hfront⟩)
      rw [hk', bind_some, hm'] at hstep
      rw [loop_cons, hk', bind_some, hm', bind_some, foldlM_cons,
        hstep] at hfull
      exact hfull
    · rintro ⟨hown, hrest⟩ front hfront
      have hstep := step_iff.mpr hown
      cases front with
      | nil => rfl
      | cons b front =>
        obtain ⟨rfl, hfront'⟩ := cons_prefix_cons.mp hfront
        rw [loop_cons, foldlM_cons, ← hstep]
        cases hk : keyOf own k b with
        | none => rfl
        | some k' =>
          simp only [bind_eq_bind, bind_some]
          cases hm : act change m k' b with
          | none => rfl
          | some m' => exact ih.mpr (hrest k' hk m' hm) front hfront'

end Honyar.Carried
