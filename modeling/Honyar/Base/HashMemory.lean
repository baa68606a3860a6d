import Honyar.LocalScene.HashTable
import Mathlib.Data.List.Induction

/-!
# The hash map when memory runs out

`hashmap.c` has the array and the chains of `hashtable.c`, but keeps copies of the values and
says what became of an insertion.  An insertion asks for memory up to many times: for a larger
array, for every entry that comes into a chain of it, and for its own place in a chain.  What was
there before stays until the larger array is complete, and so a call that fails half-way leaves
every entry (`hashMap_refines`).
-/

namespace Honyar.Base

open LocalScene (HashTable Bucket)
open LocalScene.HashTable (place_spec)

/-- The bytes that `pValue` points at. -/
abbrev Value := List UInt8

/-- What `base_calloc` answers to a call, time after time. -/
abbrev Memory := Nat → Bool

inductive Ret where
  | noErr
  | generalErr
deriving DecidableEq

variable {V : Type}

/-- An entry goes into its element, or into a new block at the end of the chain there; `n` blocks
were asked for so far. -/
def hashMapLink (mem : Memory) (s : HashTable V × Nat) (e : HashKey × V) :
    Option (HashTable V × Nat) :=
  match s.1.pstHashTable[hash e.1 s.1.uiHashTableSize]? with
  | some (.used _ _) => if mem s.2 then some (s.1.place e, s.2 + 1) else none
  | _ => some (s.1.place e, s.2)

/-- The larger array with every entry. -/
def hashMapGrow (mem : Memory) (t : HashTable V) : Option (HashTable V × Nat) :=
  if mem 0 then
    t.entries.foldlM (hashMapLink mem)
      (.empty (HashMap.nextSize t.uiHashTableSize) t.ucDilatationEnable, 1)
  else none

/-- What `hash_map_inst` does after that. -/
def hashMapPut (mem : Memory) (s : HashTable V × Nat) (e : HashKey × V) : HashTable V × Ret :=
  match hashMapLink mem s e with
  | none => (s.1, .generalErr)
  | some s => (s.1, .noErr)

/-- `hash_map_inst`. -/
def hashMapInst (mem : Memory) (t : HashTable V) (pcKey : HashKey) (pValue : V) :
    HashTable V × Ret :=
  if t.ucDilatationEnable ∧ t.uiConflict > t.uiHashTableSize * 15 / 100 then
    match hashMapGrow mem t with
    | none => (t, .generalErr)
    | some s => hashMapPut mem s (pcKey, pValue)
  else hashMapPut mem (t, 0) (pcKey, pValue)

/-- `hash_map_find2`: as much of the value as there is room for. -/
def hashMapFind2 (t : HashTable Value) (pcKey : HashKey) (iValueLen : Int) : Option Value :=
  if iValueLen ≤ 0 then none else (t.find pcKey).map (List.take iValueLen.toNat)

/-! ## Runs -/

/-- The calls of `hash_map_t`. -/
inductive HashOp where
  | inst (mem : Memory) (pcKey : HashKey) (pValue : Value)
  | find (pcKey : HashKey)
  | find2 (pcKey : HashKey) (iValueLen : Int)
  | del (pcKey : HashKey)
  | clear
  | size

/-- What they return, and the values that `pFreeValueHandle` is called for. -/
inductive HashOut where
  | ret (r : Ret)
  | value (pValue : Option Value)
  | freed (values : List Value)
  | count (n : Nat)
deriving DecidableEq

/-- A call, noted with what it returns. -/
def hashMapStep (t : HashTable Value) (op : HashOp) :
    Option (HashTable Value × List (HashOp × HashOut)) :=
  match op with
  | .inst mem k v => some ((hashMapInst mem t k v).1, [(op, .ret (hashMapInst mem t k v).2)])
  | .find k => some (t, [(op, .value (t.find k))])
  | .find2 k n => some (t, [(op, .value (hashMapFind2 t k n))])
  | .del k => some ((t.del k).1, [(op, .freed (t.del k).2.toList)])
  | .clear => some (t.clear.1, [(op, .freed t.clear.2)])
  | .size => some (t, [(op, .count t.size)])

/-- What a call may do to the multimap of the live values, with what it returns: an insertion
either puts its value behind all others or, where memory was refused, does nothing. -/
inductive LiveStep : Multimap HashKey Value → HashOp → HashOut → Multimap HashKey Value → Prop
  | inst {m mem k v} : LiveStep m (.inst mem k v) (.ret .noErr) (m.insert k v)
  | refused {m mem k v n} (h : mem n = false) : LiveStep m (.inst mem k v) (.ret .generalErr) m
  | find {m k} : LiveStep m (.find k) (.value (m.find k)) m
  | find2 {m k n} (h : 0 < n) :
      LiveStep m (.find2 k n) (.value ((m.find k).map (List.take n.toNat))) m
  | find2Invalid {m k n} (h : n ≤ 0) : LiveStep m (.find2 k n) (.value none) m
  | del {m k} : LiveStep m (.del k) (.freed (m.find k).toList) (m.erase k)
  | clear {m vs} (h : vs.Perm (m.map Prod.snd)) : LiveStep m .clear (.freed vs) []
  | size {m} : LiveStep m .size (.count m.length) m

/-- A log of calls and results, followed through the live values. -/
inductive LiveRun : List (HashOp × HashOut) → Multimap HashKey Value → Prop
  | nil : LiveRun [] []
  | snoc {m m' log op out} (h : LiveRun log m) (hs : LiveStep m op out m') :
      LiveRun (log ++ [(op, out)]) m'

theorem hashMapLink_cases (mem : Memory) (s : HashTable V × Nat) (e : HashKey × V) :
    (∃ n, hashMapLink mem s e = some (s.1.place e, n)) ∨
      hashMapLink mem s e = none ∧ ∃ n, mem n = false := by
  rw [hashMapLink]
  split
  · split
    · exact .inl ⟨_, rfl⟩
    · rename_i hmem
      exact .inr ⟨rfl, s.2, by simpa using hmem⟩
  · exact .inl ⟨_, rfl⟩

/-- Growing either goes through, and moves every entry, or memory was refused. -/
theorem hashMapGrow_cases (mem : Memory) (t : HashTable V) :
    (∃ n, hashMapGrow mem t = some (t.dilate, n)) ∨
      hashMapGrow mem t = none ∧ ∃ n, mem n = false := by
  have hfold : ∀ (es : List (HashKey × V)) (s : HashTable V × Nat),
      (∃ n, es.foldlM (hashMapLink mem) s = some (es.foldl HashTable.place s.1, n)) ∨
        es.foldlM (hashMapLink mem) s = none ∧ ∃ n, mem n = false := by
    intro es
    induction es with
    | nil => exact fun s => .inl ⟨s.2, rfl⟩
    | cons e es ih =>
      intro s
      rw [List.foldlM_cons, List.foldl_cons]
      rcases hashMapLink_cases mem s e with ⟨n, hlink⟩ | ⟨hlink, hmem⟩
      · rw [hlink]
        exact ih (s.1.place e, n)
      · rw [hlink]
        exact .inr ⟨rfl, hmem⟩
  rw [hashMapGrow]
  split
  · exact hfold _ _
  · rename_i hmem
    exact .inr ⟨rfl, 0, by simpa using hmem⟩

/-- An insertion puts its value behind all others, or leaves what there is where memory was
refused, in an array that may have grown. -/
theorem hashMapInst_spec {t : HashTable V} {m : Multimap HashKey V} (h : t.Refines m)
    (mem : Memory) (k : HashKey) (v : V) :
    (hashMapInst mem t k v).2 = .noErr ∧ (hashMapInst mem t k v).1.Refines (m.insert k v) ∨
      (hashMapInst mem t k v).2 = .generalErr ∧ (hashMapInst mem t k v).1.Refines m ∧
        ∃ n, mem n = false := by
  have hput : ∀ s : HashTable V × Nat, s.1.Refines m →
      (hashMapPut mem s (k, v)).2 = .noErr ∧
          (hashMapPut mem s (k, v)).1.Refines (m.insert k v) ∨
        (hashMapPut mem s (k, v)).2 = .generalErr ∧ (hashMapPut mem s (k, v)).1.Refines m ∧
          ∃ n, mem n = false := by
    intro s hs
    rw [hashMapPut]
    rcases hashMapLink_cases mem s (k, v) with ⟨n, hlink⟩ | ⟨hlink, hmem⟩
    · obtain ⟨hwf, hequiv⟩ := place_spec hs.wf (k, v)
      rw [hlink]
      exact .inl ⟨rfl, hwf, hequiv.trans (hs.equiv.insert k v)⟩
    · rw [hlink]
      exact .inr ⟨rfl, hs, hmem⟩
  by_cases hfull : t.ucDilatationEnable ∧ t.uiConflict > t.uiHashTableSize * 15 / 100
  · rw [hashMapInst, if_pos hfull]
    rcases hashMapGrow_cases mem t with ⟨n, hgrow⟩ | ⟨hgrow, hmem⟩
    · obtain ⟨hwf, hequiv⟩ := HashTable.dilate_spec t
      rw [hgrow]
      exact hput (t.dilate, n) ⟨hwf, hequiv.trans h.equiv⟩
    · rw [hgrow]
      exact .inr ⟨rfl, h, hmem⟩
  · rw [hashMapInst, if_neg hfull]
    exact hput (t, 0) h

/-- Every call returns what the multimap of the live values says. -/
theorem hashMapStep_spec {t : HashTable Value} {m : Multimap HashKey Value} (h : t.Refines m)
    (op : HashOp) : ∃ t' out m', hashMapStep t op = some (t', [(op, out)]) ∧
      LiveStep m op out m' ∧ t'.Refines m' := by
  cases op with
  | inst mem k v =>
    rcases hashMapInst_spec h mem k v with ⟨hret, hrefines⟩ | ⟨hret, hrefines, n, hmem⟩
    · exact ⟨_, _, _, rfl, hret ▸ .inst, hrefines⟩
    · exact ⟨_, _, _, rfl, hret ▸ .refused hmem, hrefines⟩
  | find k => exact ⟨_, _, _, rfl, h.find k ▸ .find, h⟩
  | find2 k n =>
    refine ⟨_, _, _, rfl, ?_, h⟩
    rw [hashMapFind2, h.find k]
    split
    · rename_i hn
      exact .find2Invalid hn
    · rename_i hn
      exact .find2 (Int.not_le.mp hn)
  | del k =>
    obtain ⟨hrefines, hvalue⟩ := h.del k
    exact ⟨_, _, _, rfl, hvalue ▸ .del, hrefines⟩
  | clear => exact ⟨_, _, _, rfl, .clear h.clear.2, h.clear.1⟩
  | size => exact ⟨_, _, _, rfl, h.size ▸ .size, h⟩

/-- Every run of calls, whatever memory it is refused, returns what a multimap of the live values
says: an insertion that succeeds puts a value behind all others, a key finds its oldest value, and
a deletion takes that one away and frees it.  The entries of a key stand in the table in their
order, and its size is their number. -/
theorem hashMap_refines (iSize : Int) (iDilatationEnable : Bool) (ops : List HashOp) :
    ∃ t log m, Run.run hashMapStep (HashTable.newHashTable iSize iDilatationEnable) ops =
        some (t, log) ∧ log.map Prod.fst = ops ∧ LiveRun log m ∧
      (∀ k, t.find k = m.find k ∧ Multimap.ofKey t.entries k = m.ofKey k) ∧
      t.size = m.length := by
  have hrun : ∃ t log m, Run.run hashMapStep (HashTable.newHashTable iSize iDilatationEnable) ops =
      some (t, log) ∧ log.map Prod.fst = ops ∧ LiveRun log m ∧ t.Refines m := by
    induction ops using List.reverseRecOn with
    | nil => exact ⟨_, [], [], rfl, rfl, .nil, .init iSize iDilatationEnable⟩
    | append_singleton ops op ih =>
      obtain ⟨t, log, m, hrun, hlog, hlive, hrefines⟩ := ih
      obtain ⟨t', out, m', hstep, hs, hrefines'⟩ := hashMapStep_spec hrefines op
      exact ⟨t', log ++ [(op, out)], m', Run.run_snoc.mpr ⟨t, log, _, hrun, hstep, rfl⟩,
        by simp [hlog], hlive.snoc hs, hrefines'⟩
  obtain ⟨t, log, m, hrun, hlog, hlive, hrefines⟩ := hrun
  exact ⟨t, log, m, hrun, hlog, hlive, fun k => ⟨hrefines.find k, hrefines.equiv k⟩,
    hrefines.size⟩

end Honyar.Base
