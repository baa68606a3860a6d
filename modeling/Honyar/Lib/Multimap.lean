import Honyar.Lib.Keyed
import Mathlib.Data.List.Perm.Basic
import Mathlib.Tactic.Common

/-!
# Multimaps

What a table stands for that takes several values for a key: the entries with the
oldest first.  A key finds its oldest value, and a deletion takes that one away.

The order of entries with different keys shows in none of this.  Two multimaps
are equivalent when each key has the same values in the same order in both, and
all operations respect it.
-/

namespace Honyar

open List

variable {K V : Type} [DecidableEq K]

/-- The entries of a table, the oldest first. -/
abbrev Multimap (K V : Type) : Type := List (K × V)

namespace Multimap

variable {m m' m'' : Multimap K V} {k k' : K} {v : V}

/-- The entries of a key. -/
def ofKey (m : Multimap K V) (k : K) : List (K × V) := m.filter fun e => e.1 = k

/-- A value behind all others. -/
def insert (m : Multimap K V) (k : K) (v : V) : Multimap K V := m ++ [(k, v)]

/-- The oldest value of a key. -/
def find (m : Multimap K V) (k : K) : Option V := (m.find? fun e => e.1 = k).map Prod.snd

/-- Without the oldest value of a key. -/
def erase (m : Multimap K V) (k : K) : Multimap K V := m.eraseP fun e => e.1 = k

theorem ofKey_append (m m' : Multimap K V) (k : K) :
    ofKey (m ++ m') k = ofKey m k ++ ofKey m' k := filter_append ..

theorem ofKey_cons (e : K × V) (m : Multimap K V) (k : K) :
    ofKey (e :: m) k = if e.1 = k then e :: ofKey m k else ofKey m k := by
  rw [ofKey, filter_cons]
  simp only [decide_eq_true_eq]
  rfl

theorem ofKey_eq_nil (h : ∀ e ∈ m, e.1 ≠ k) : ofKey m k = [] := by
  rw [ofKey, filter_eq_nil_iff]
  simpa using h

theorem find_eq (m : Multimap K V) (k : K) : m.find k = (m.ofKey k).head?.map Prod.snd := by
  rw [find, ofKey, head?_filter]

/-- A deletion takes the oldest entry of its key. -/
theorem ofKey_erase (m : Multimap K V) (k k' : K) :
    ofKey (m.erase k) k' = if k = k' then (m.ofKey k').tail else m.ofKey k' := by
  induction m with
  | nil => split <;> rfl
  | cons e m ih =>
    by_cases he : e.1 = k
    · rw [erase, eraseP_cons_of_pos (by simpa using he), ofKey_cons]
      split
      · rename_i hk
        rw [if_pos (he.trans hk), tail_cons]
      · rename_i hk
        rw [if_neg fun h => hk (he.symm.trans h)]
    · rw [erase, eraseP_cons_of_neg (by simpa using he), ofKey_cons, ofKey_cons]
      rw [erase] at ih
      rw [ih]
      by_cases hk : k = k'
      · rw [if_pos hk, if_pos hk, if_neg fun h => he (h.trans hk.symm),
          if_neg fun h => he (h.trans hk.symm)]
      · rw [if_neg hk, if_neg hk]

/-- Each key has the same entries in the same order. -/
def Equiv (m m' : Multimap K V) : Prop := ∀ k, m.ofKey k = m'.ofKey k

namespace Equiv

theorem refl (m : Multimap K V) : Equiv m m := fun _ => rfl

theorem symm (h : Equiv m m') : Equiv m' m := fun k => (h k).symm

theorem trans (h : Equiv m m') (h' : Equiv m' m'') : Equiv m m'' := fun k => (h k).trans (h' k)

theorem append {n n' : Multimap K V} (h : Equiv m m') (h' : Equiv n n') :
    Equiv (m ++ n) (m' ++ n') := by
  intro k
  rw [ofKey_append, ofKey_append, h k, h' k]

theorem insert (h : Equiv m m') (k : K) (v : V) : Equiv (m.insert k v) (m'.insert k v) :=
  h.append (refl _)

theorem find (h : Equiv m m') (k : K) : m.find k = m'.find k := by
  rw [find_eq, find_eq, h k]

theorem erase (h : Equiv m m') (k : K) : Equiv (m.erase k) (m'.erase k) := by
  intro k'
  rw [ofKey_erase, ofKey_erase, h k']

theorem mem_iff (h : Equiv m m') {e : K × V} : e ∈ m ↔ e ∈ m' := by
  have hmem : ∀ n : Multimap K V, e ∈ n ↔ e ∈ n.ofKey e.1 := by
    intro n
    rw [ofKey, mem_filter]
    simp
  rw [hmem m, hmem m', h]

/-- Two pieces that share no key may change places. -/
theorem append_comm (h : ∀ e ∈ m, ∀ e' ∈ m', e.1 ≠ e'.1) : Equiv (m ++ m') (m' ++ m) := by
  intro k
  rw [ofKey_append, ofKey_append]
  by_cases hk : ∃ e ∈ m, e.1 = k
  · obtain ⟨e, he, rfl⟩ := hk
    rw [ofKey_eq_nil fun e' he' => (h e he e' he').symm, append_nil, nil_append]
  · rw [ofKey_eq_nil fun e he hek => hk ⟨e, he, hek⟩, append_nil, nil_append]

/-- They hold the same entries. -/
theorem perm (h : Equiv m m') : m.Perm m' := by
  induction m generalizing m' with
  | nil =>
    have hnil : m' = [] := by
      rw [eq_nil_iff_forall_not_mem]
      exact fun e he => not_mem_nil (h.mem_iff.mpr he)
    rw [hnil]
  | cons e m ih =>
    -- the first entry is the oldest of its key in both
    have hfirst : m'.find? (fun e' => decide (e'.1 = e.1)) = some e := by
      rw [← head?_filter]
      have hat := h e.1
      rw [ofKey_cons, if_pos rfl] at hat
      exact congrArg List.head? hat.symm
    obtain ⟨hpos, as, bs, rfl, hneg⟩ := find?_eq_some_iff_append.mp hfirst
    have herase : Multimap.erase (as ++ e :: bs) e.1 = as ++ bs := by
      rw [Multimap.erase, eraseP_append_right _ (by simpa using hneg),
        eraseP_cons_of_pos (by simp)]
    have hself : Multimap.erase (e :: m) e.1 = m := eraseP_cons_of_pos (by simp)
    have hrest := h.erase e.1
    rw [herase, hself] at hrest
    exact ((ih hrest).cons e).trans perm_middle.symm

theorem length_eq (h : Equiv m m') : m.length = m'.length := h.perm.length_eq

end Equiv

/-! ## Keys with one value -/

section Unique

variable (h : (m.map Prod.fst).Nodup)
include h

theorem find_eq_some_iff : m.find k = some v ↔ (k, v) ∈ m := by
  rw [find]
  constructor
  · intro hfind
    obtain ⟨⟨k', v'⟩, hfound, rfl⟩ := Option.map_eq_some_iff.mp hfind
    obtain rfl : k' = k := by simpa using find?_some hfound
    exact mem_of_find?_eq_some hfound
  · intro hmem
    cases hfound : m.find? fun e => decide (e.1 = k) with
    | none =>
      rw [find?_eq_none] at hfound
      exact absurd (decide_eq_true rfl) (hfound _ hmem)
    | some e =>
      have hkey : e.1 = k := by simpa using find?_some hfound
      rw [Keyed.eq_of_key_eq h (mem_of_find?_eq_some hfound) hmem hkey, Option.map_some]

theorem mem_erase_iff {e : K × V} : e ∈ m.erase k ↔ e ∈ m ∧ e.1 ≠ k := by
  constructor
  · intro he
    refine ⟨mem_of_mem_eraseP he, fun hk => ?_⟩
    exact Keyed.notMem_eraseP h (fun y => by simp [hk]) he
  · rintro ⟨he, hk⟩
    exact (mem_eraseP_of_neg (by simpa using hk)).mpr he

end Unique

end Multimap

end Honyar
