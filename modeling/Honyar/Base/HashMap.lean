import Honyar.Lib.CText
import Mathlib.Data.List.Nodup
import Mathlib.Data.List.Range
import Mathlib.Tactic.Common

/-!
# The hash map

A table of chains: an entry stands in the chain of its key's hash, behind those that were
there before.  An insertion never looks whether the key is there already, and when too many
entries stand behind others everything is moved to a larger table first.  What matters to
those who use it is `all`: the values inserted for a key and not deleted, the oldest first.
-/

namespace Honyar.Base

open List

/-- `HASH_KEY_MAX_LEN`. -/
def hashKeyMaxLen : Nat := 128

/-- What a buffer of `HASH_KEY_MAX_LEN` bytes can hold. -/
abbrev HashKey := { t : CText // t.length < hashKeyMaxLen }

/-- `snprintf` into such a buffer. -/
def hashKey (parts : List CText) : HashKey :=
  ⟨CText.snprintf hashKeyMaxLen parts, by
    rw [CText.snprintf, length_take]
    exact (Nat.min_le_left _ _).trans_lt (by decide)⟩

theorem hashKey_val {parts : List CText} (h : parts.flatten.length < hashKeyMaxLen) :
    (hashKey parts).1 = parts.flatten :=
  take_of_length_le (Nat.le_sub_one_of_lt h)

/-- The sum that `hash_map` makes of the characters, in 32 bits. -/
def hashSum (key : HashKey) : UInt32 :=
  key.1.foldl (fun h c => h * 131 + UInt32.ofNat c.toNat) 0

/-- `hash_map`. -/
def hash (key : HashKey) (iSize : Nat) : Nat :=
  (hashSum key).toNat % iSize

/-- `hash_map_t` with its private part: the chains by their index, none where `ucUsed` is not
set.  Every entry stands where its key's hash says. -/
structure HashMap (V : Type) where
  uiHashMapSize : Nat
  ucDilatationEnable : Bool
  uiUsedCount : Nat
  uiConflict : Nat
  table : Nat → List (HashKey × V)
  pos : 0 < uiHashMapSize
  placed : ∀ i, ∀ e ∈ table i, hash e.1 uiHashMapSize = i

namespace HashMap

variable {V : Type}

/-- The sizes a table grows through. -/
def sizeList : List Nat :=
  [53, 97, 193, 389, 769, 1543, 3079, 6151, 12289, 24593, 49157, 98317, 196613, 393241, 786443,
    1572869, 3145739, 6291469, 12582917, 25165842, 50331553, 100663319, 201326611, 402653189,
    805306457, 1610612741]

/-- A table without entries. -/
def empty (iSize : Nat) (h : 0 < iSize) (iDilatationEnable : Bool) : HashMap V where
  uiHashMapSize := iSize
  ucDilatationEnable := iDilatationEnable
  uiUsedCount := 0
  uiConflict := 0
  table := fun _ => []
  pos := h
  placed := by simp

/-- `new_hash_map`; no size is asked for with zero. -/
def newHashMap (iSize : Nat) (iDilatationEnable : Bool) : HashMap V :=
  if h : 0 < iSize then empty iSize h iDilatationEnable
  else empty 53 (by decide) iDilatationEnable

/-- An entry behind the others of its chain. -/
def put (m : HashMap V) (e : HashKey × V) : HashMap V :=
  let i := hash e.1 m.uiHashMapSize
  { m with
    uiUsedCount := if m.table i = [] then m.uiUsedCount + 1 else m.uiUsedCount
    uiConflict := if m.table i = [] then m.uiConflict else m.uiConflict + 1
    table := Function.update m.table i (m.table i ++ [e])
    placed := by
      intro j x hx
      by_cases hj : j = i
      · subst hj
        rw [Function.update_self] at hx
        rcases mem_append.mp hx with hx | hx
        · exact m.placed _ x hx
        · rw [mem_singleton.mp hx]
      · rw [Function.update_of_ne hj] at hx
        exact m.placed j x hx }

/-- All entries, chain by chain. -/
def entries (m : HashMap V) : List (HashKey × V) :=
  (List.range m.uiHashMapSize).flatMap m.table

/-- The next size a table grows to, or the largest. -/
def nextSize (uiHashMapSize : Nat) : Nat :=
  (sizeList.find? (uiHashMapSize < ·)).getD 1610612741

theorem nextSize_pos (n : Nat) : 0 < nextSize n := by
  rw [nextSize]
  cases h : sizeList.find? (n < ·) with
  | none => decide
  | some k => exact (Nat.zero_le n).trans_lt (by simpa using find?_some h)

/-- Everything moved to a larger table. -/
def dilate (m : HashMap V) : HashMap V :=
  m.entries.foldl put (empty (nextSize m.uiHashMapSize) (nextSize_pos _) m.ucDilatationEnable)

/-- `hash_map_inst`: the table grows when more than 15% of its size stand behind others. -/
def inst (m : HashMap V) (pcKey : HashKey) (pValue : V) : HashMap V :=
  let m := if m.ucDilatationEnable ∧ m.uiHashMapSize * 15 / 100 < m.uiConflict then m.dilate else m
  m.put (pcKey, pValue)

/-- `hash_map_del`: the first entry of the chain with the key. -/
def del (m : HashMap V) (pcKey : HashKey) : HashMap V :=
  let i := hash pcKey m.uiHashMapSize
  let found := (m.table i).any (·.1 = pcKey)
  { m with
    uiUsedCount := if found ∧ (m.table i).length = 1 then m.uiUsedCount - 1 else m.uiUsedCount
    uiConflict := if found ∧ (m.table i).length ≠ 1 then m.uiConflict - 1 else m.uiConflict
    table := Function.update m.table i ((m.table i).eraseP (·.1 = pcKey))
    placed := by
      intro j x hx
      by_cases hj : j = i
      · subst hj
        rw [Function.update_self] at hx
        exact m.placed _ x (mem_of_mem_eraseP hx)
      · rw [Function.update_of_ne hj] at hx
        exact m.placed j x hx }

/-- `hash_map_find`: the value of the first entry of the chain with the key. -/
def find (m : HashMap V) (pcKey : HashKey) : Option V :=
  ((m.table (hash pcKey m.uiHashMapSize)).find? (·.1 = pcKey)).map Prod.snd

/-! ## The values of a key -/

/-- The values inserted for a key and not deleted, the oldest first. -/
def all (m : HashMap V) (pcKey : HashKey) : List V :=
  ((m.table (hash pcKey m.uiHashMapSize)).filter (·.1 = pcKey)).map Prod.snd

theorem find_eq (m : HashMap V) (k : HashKey) : m.find k = (m.all k).head? := by
  rw [find, all, head?_map, head?_filter]

@[simp] theorem all_empty (n : Nat) (h : 0 < n) (b : Bool) (k : HashKey) :
    (empty n h b : HashMap V).all k = [] := rfl

@[simp] theorem all_newHashMap (n : Nat) (b : Bool) (k : HashKey) :
    (newHashMap n b : HashMap V).all k = [] := by
  unfold newHashMap
  split <;> rfl

theorem all_put (m : HashMap V) (e : HashKey × V) (k : HashKey) :
    (m.put e).all k = m.all k ++ if e.1 = k then [e.2] else [] := by
  by_cases hi : hash k m.uiHashMapSize = hash e.1 m.uiHashMapSize
  · have htable : (m.put e).table (hash k m.uiHashMapSize) =
        m.table (hash k m.uiHashMapSize) ++ [e] := by
      rw [hi]
      exact Function.update_self ..
    rw [all, all]
    change ((((m.put e).table (hash k m.uiHashMapSize)).filter _).map Prod.snd) = _
    rw [htable, filter_append, map_append]
    congr 1
    by_cases he : e.1 = k <;> simp [he]
  · have hne : e.1 ≠ k := fun heq => hi (by rw [heq])
    have htable : (m.put e).table (hash k m.uiHashMapSize) = m.table (hash k m.uiHashMapSize) :=
      Function.update_of_ne hi ..
    rw [all, all, if_neg hne, append_nil]
    change ((((m.put e).table (hash k m.uiHashMapSize)).filter _).map Prod.snd) = _
    rw [htable]

theorem all_foldl_put (es : List (HashKey × V)) (m : HashMap V) (k : HashKey) :
    (es.foldl put m).all k = m.all k ++ (es.filter (·.1 = k)).map Prod.snd := by
  induction es generalizing m with
  | nil => simp
  | cons e es ih =>
    rw [foldl_cons, ih, all_put, append_assoc]
    congr 1
    by_cases he : e.1 = k <;> simp [he]

theorem flatMap_range_eq {α : Type} {f : Nat → List α} {n j : Nat} (hj : j < n)
    (h : ∀ i, i ≠ j → f i = []) : (List.range n).flatMap f = f j := by
  induction n with
  | zero => exact absurd hj (Nat.not_lt_zero j)
  | succ n ih =>
    rw [range_succ, flatMap_append, flatMap_singleton]
    by_cases hn : j = n
    · subst hn
      have hnil : (List.range j).flatMap f = [] := by
        rw [flatMap_eq_nil_iff]
        intro i hi
        exact h i (Nat.ne_of_lt (mem_range.mp hi))
      rw [hnil, nil_append]
    · rw [ih (by omega), h n (Ne.symm hn), append_nil]

theorem filter_entries (m : HashMap V) (k : HashKey) :
    (m.entries.filter (·.1 = k)).map Prod.snd = m.all k := by
  have hlt : hash k m.uiHashMapSize < m.uiHashMapSize := Nat.mod_lt _ m.pos
  rw [all, entries, filter_flatMap, flatMap_range_eq hlt]
  intro i hi
  rw [filter_eq_nil_iff]
  intro e he heq
  have heq : e.1 = k := by simpa using heq
  exact hi (by rw [← m.placed i e he, heq])

theorem all_dilate (m : HashMap V) (k : HashKey) : m.dilate.all k = m.all k := by
  rw [dilate, all_foldl_put, all_empty, nil_append, filter_entries]

theorem all_inst (m : HashMap V) (k : HashKey) (v : V) (k' : HashKey) :
    (m.inst k v).all k' = m.all k' ++ if k = k' then [v] else [] := by
  rw [inst, all_put]
  split
  · rw [all_dilate]
  · rfl

theorem all_del (m : HashMap V) (k k' : HashKey) :
    (m.del k).all k' = if k = k' then (m.all k').tail else m.all k' := by
  by_cases hi : hash k' m.uiHashMapSize = hash k m.uiHashMapSize
  · have htable : (m.del k).table (hash k' m.uiHashMapSize) =
        (m.table (hash k' m.uiHashMapSize)).eraseP (·.1 = k) := by
      rw [hi]
      exact Function.update_self ..
    rw [all, all]
    change ((((m.del k).table (hash k' m.uiHashMapSize)).filter _).map Prod.snd) = _
    rw [htable]
    generalize m.table (hash k' m.uiHashMapSize) = es
    induction es with
    | nil => simp
    | cons e es ih =>
      by_cases he : e.1 = k
      · by_cases hk : k = k'
        · simp [he, hk]
        · simp [he, hk]
      · rw [eraseP_cons_of_neg (by simpa using he)]
        by_cases hk : k = k'
        · subst hk
          simpa [he] using ih
        · by_cases he' : e.1 = k'
          · simpa [hk, he'] using ih
          · simpa [hk, he'] using ih
  · have hne : k ≠ k' := fun heq => hi (by rw [heq])
    have htable : (m.del k).table (hash k' m.uiHashMapSize) = m.table (hash k' m.uiHashMapSize) :=
      Function.update_of_ne hi ..
    rw [all, all, if_neg hne]
    change ((((m.del k).table (hash k' m.uiHashMapSize)).filter _).map Prod.snd) = _
    rw [htable]

/-! ## Distinct keys

Used with care the map is one: every key is in it at most once. -/

/-- The map holds the entries, whose keys are distinct, and no others. -/
structure Mirror (m : HashMap V) (es : List (HashKey × V)) : Prop where
  nodup : (es.map Prod.fst).Nodup
  all : ∀ k, (m.all k).Perm ((es.filter (·.1 = k)).map Prod.snd)

namespace Mirror

variable {m : HashMap V} {es es' : List (HashKey × V)} {k : HashKey} {v : V}

theorem filter_eq_nil (hk : k ∉ es.map Prod.fst) : es.filter (·.1 = k) = [] := by
  rw [filter_eq_nil_iff]
  exact fun e he heq => hk (mem_map.mpr ⟨e, he, by simpa using heq⟩)

theorem filter_eq_singleton (h : (es.map Prod.fst).Nodup) (hk : (k, v) ∈ es) :
    es.filter (·.1 = k) = [(k, v)] := by
  induction es with
  | nil => cases hk
  | cons e es ih =>
    obtain ⟨hnot, hnd⟩ := nodup_cons.mp h
    rcases mem_cons.mp hk with rfl | hk
    · rw [filter_cons_of_pos (by simp), filter_eq_nil hnot]
    · have hne : e.1 ≠ k := fun heq => hnot (heq ▸ mem_map_of_mem hk)
      rw [filter_cons_of_neg (by simpa using hne), ih hnd hk]

theorem ext (h : Mirror m es) {e e' : HashKey × V} (he : e ∈ es) (he' : e' ∈ es)
    (hk : e.1 = e'.1) : e = e' :=
  inj_on_of_nodup_map h.nodup he he' hk

theorem empty (n : Nat) (b : Bool) : Mirror (newHashMap n b : HashMap V) [] :=
  ⟨nodup_nil, fun k => by simp⟩

theorem perm (h : Mirror m es) (hp : es.Perm es') : Mirror m es' :=
  ⟨(hp.map _).nodup_iff.mp h.nodup, fun k => (h.all k).trans ((hp.filter _).map _)⟩

theorem all_eq_nil (h : Mirror m es) (hk : k ∉ es.map Prod.fst) : m.all k = [] := by
  have hperm := h.all k
  rw [filter_eq_nil hk] at hperm
  exact perm_nil.mp hperm

theorem all_eq (h : Mirror m es) (hk : (k, v) ∈ es) : m.all k = [v] := by
  have hperm := h.all k
  rw [filter_eq_singleton h.nodup hk] at hperm
  exact perm_singleton.mp hperm

theorem find_eq (h : Mirror m es) (hk : (k, v) ∈ es) : m.find k = some v := by
  rw [HashMap.find_eq, h.all_eq hk]
  rfl

theorem find_eq_none (h : Mirror m es) (hk : k ∉ es.map Prod.fst) : m.find k = none := by
  rw [HashMap.find_eq, h.all_eq_nil hk]
  rfl

theorem inst (h : Mirror m es) (hk : k ∉ es.map Prod.fst) (v : V) :
    Mirror (m.inst k v) (es ++ [(k, v)]) := by
  refine ⟨?_, fun k' => ?_⟩
  · rw [map_append, nodup_append]
    refine ⟨h.nodup, nodup_singleton _, ?_⟩
    rintro a ha b hb rfl
    obtain rfl : a = k := by simpa using hb
    exact hk ha
  · rw [all_inst, filter_append, map_append]
    refine (h.all k').append (List.Perm.of_eq ?_)
    by_cases hkk : k = k' <;> simp [hkk]

theorem del (h : Mirror m es) (k : HashKey) :
    Mirror (m.del k) (es.filter fun e => e.1 ≠ k) := by
  refine ⟨h.nodup.sublist (filter_sublist.map _), fun k' => ?_⟩
  rw [all_del, filter_filter]
  by_cases hkk : k = k'
  · subst hkk
    have hnil : es.filter (fun e => decide (e.1 = k) && decide (e.1 ≠ k)) = [] := by
      rw [filter_eq_nil_iff]
      intro e _
      simp
    rw [if_pos rfl, hnil]
    by_cases hk : k ∈ es.map Prod.fst
    · obtain ⟨⟨_, v⟩, he, rfl⟩ := mem_map.mp hk
      rw [h.all_eq he]
      exact List.Perm.refl _
    · rw [h.all_eq_nil hk]
      exact List.Perm.refl _
  · have hsame : es.filter (fun e => decide (e.1 = k') && decide (e.1 ≠ k)) =
        es.filter (·.1 = k') := by
      refine filter_congr fun e _ => ?_
      by_cases hek : e.1 = k'
      · simp [hek, Ne.symm hkk]
      · simp [hek]
    rw [if_neg hkk, hsame]
    exact h.all k'

theorem delAll {ds : List (HashKey × V)} (h : Mirror m (ds ++ es)) :
    Mirror ((ds.map Prod.fst).foldl HashMap.del m) es := by
  induction ds generalizing m with
  | nil => exact h
  | cons d ds ih =>
    refine ih ?_
    have hdel := h.del d.1
    have hnot := (nodup_cons.mp h.nodup).1
    have hrest : (ds ++ es).filter (fun e => decide (e.1 ≠ d.1)) = ds ++ es := by
      rw [filter_eq_self]
      intro e he
      have hne : e.1 ≠ d.1 := fun heq => hnot (heq ▸ mem_map_of_mem he)
      simpa using hne
    rwa [cons_append, filter_cons_of_neg (by simp), hrest] at hdel

end Mirror

end HashMap

end Honyar.Base
