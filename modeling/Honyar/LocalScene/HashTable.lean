import Honyar.Base.HashMap
import Honyar.Lib.Multimap
import Honyar.Lib.Run
import Mathlib.Algebra.Order.BigOperators.Group.List
import Mathlib.Algebra.Ring.Nat

/-!
# The hash table

`hashtable.c`: an array whose elements hold their first entry themselves and the
others in a chain behind them.  Two counters say how many elements are used and
how many entries stand in chains.  When too many do, an insertion first moves
every entry to a larger array, element by element and each chain from its front.

Deleting the first entry of an element moves the next one of its chain into the
element.  The entries of one key are always in one chain, the oldest first, and
so the table is a multimap (`Refines`).
-/

namespace Honyar.LocalScene

open Base (HashKey)
open Option List

variable {V : Type}

/-- `hash_elem_t` in the array: not used, or the first entry with the chain of
the others. -/
inductive Bucket (V : Type) where
  | unused
  | used (elem : HashKey × V) (next : List (HashKey × V))
deriving DecidableEq

namespace Bucket

/-- The entries, the first one before the chain. -/
def entries : Bucket V → List (HashKey × V)
  | unused => []
  | used p next => p :: next

/-- `ucUsed`. -/
def ucUsed : Bucket V → Nat
  | unused => 0
  | used _ _ => 1

/-- How many entries stand in the chain. -/
def conflicts : Bucket V → Nat
  | unused => 0
  | used _ next => next.length

theorem length_entries (b : Bucket V) : b.entries.length = b.ucUsed + b.conflicts := by
  cases b with
  | unused => rfl
  | used p next => exact Nat.add_comm next.length 1

end Bucket

/-- `hash_table_class_t` with its private part. -/
structure HashTable (V : Type) where
  uiHashTableSize : Nat
  ucDilatationEnable : Bool
  uiUsedCount : Nat
  uiConflict : Nat
  pstHashTable : List (Bucket V)
deriving DecidableEq

namespace HashTable

/-- `hash`, the function of `hash_map` once more. -/
def hash (pcKey : HashKey) (iSize : Nat) : Nat := Base.hash pcKey iSize

/-- An array that `calloc` made. -/
def empty (iSize : Nat) (ucDilatationEnable : Bool) : HashTable V where
  uiHashTableSize := iSize
  ucDilatationEnable := ucDilatationEnable
  uiUsedCount := 0
  uiConflict := 0
  pstHashTable := List.replicate iSize .unused

/-- `new_hash_table`. -/
def newHashTable (iSize : Int) (iDilatationEnable : Bool) : HashTable V :=
  empty (if iSize > 0 then iSize.toNat else 53) iDilatationEnable

/-- An entry goes into its element, or to the end of the chain there. -/
def place (t : HashTable V) (e : HashKey × V) : HashTable V :=
  let uiHash := hash e.1 t.uiHashTableSize
  match t.pstHashTable[uiHash]? with
  | some (.used p next) =>
    { t with
      pstHashTable := t.pstHashTable.set uiHash (.used p (next ++ [e]))
      uiConflict := t.uiConflict + 1 }
  | some .unused =>
    { t with
      pstHashTable := t.pstHashTable.set uiHash (.used e [])
      uiUsedCount := t.uiUsedCount + 1 }
  | none => t

/-- All entries, in the order they are moved in. -/
def entries (t : HashTable V) : Multimap HashKey V := t.pstHashTable.flatMap Bucket.entries

/-- Every entry is moved to a larger array. -/
def dilate (t : HashTable V) : HashTable V :=
  t.entries.foldl place
    (empty (Base.HashMap.nextSize t.uiHashTableSize) t.ucDilatationEnable)

/-- `hash_inst`. -/
def inst (t : HashTable V) (pcKey : HashKey) (pValue : V) : HashTable V :=
  let t :=
    if t.ucDilatationEnable ∧ t.uiConflict > t.uiHashTableSize * 15 / 100 then t.dilate else t
  t.place (pcKey, pValue)

/-- `hash_del`, with the value that is passed to `pFreeValueHandle`. -/
def del (t : HashTable V) (pcKey : HashKey) : HashTable V × Option V :=
  let uiHash := hash pcKey t.uiHashTableSize
  match t.pstHashTable[uiHash]? with
  | some (.used p next) =>
    if p.1 = pcKey then
      match next with
      | [] =>
        ({ t with
          pstHashTable := t.pstHashTable.set uiHash .unused
          uiUsedCount := t.uiUsedCount - 1 }, some p.2)
      | p1 :: next =>
        ({ t with
          pstHashTable := t.pstHashTable.set uiHash (.used p1 next)
          uiConflict := t.uiConflict - 1 }, some p.2)
    else
      match next.find? fun q => q.1 = pcKey with
      | some p1 =>
        ({ t with
          pstHashTable :=
            t.pstHashTable.set uiHash (.used p (next.eraseP fun q => q.1 = pcKey))
          uiConflict := t.uiConflict - 1 }, some p1.2)
      | none => (t, none)
  | _ => (t, none)

/-- `hash_clear`, with the values that are passed to `pFreeValueHandle`: those of
each chain before that of its element. -/
def clear (t : HashTable V) : HashTable V × List V :=
  ({ t with
      pstHashTable := t.pstHashTable.map fun _ => .unused
      uiUsedCount := 0
      uiConflict := 0 },
    t.pstHashTable.flatMap fun
      | .unused => []
      | .used p next => next.map Prod.snd ++ [p.2])

/-- `hash_find`. -/
def find (t : HashTable V) (pcKey : HashKey) : Option V :=
  match t.pstHashTable[hash pcKey t.uiHashTableSize]? with
  | some (.used p next) => ((p :: next).find? fun q => q.1 = pcKey).map Prod.snd
  | _ => none

/-- `hash_size`. -/
def size (t : HashTable V) : Nat := t.uiUsedCount + t.uiConflict

/-- `hash_is_empty`. -/
def isEmpty (t : HashTable V) : Bool := t.uiUsedCount == 0

/-! ## The element of a key -/

/-- What the operations keep: every entry is in the element its key's hash says,
and the counters count. -/
structure Wf (t : HashTable V) : Prop where
  pos : 0 < t.uiHashTableSize
  length : t.pstHashTable.length = t.uiHashTableSize
  placed : ∀ i b, t.pstHashTable[i]? = some b → ∀ e ∈ b.entries,
    hash e.1 t.uiHashTableSize = i
  usedCount : t.uiUsedCount = (t.pstHashTable.map Bucket.ucUsed).sum
  conflict : t.uiConflict = (t.pstHashTable.map Bucket.conflicts).sum

variable {t : HashTable V} {k : HashKey}

theorem hash_lt (h : t.Wf) (k : HashKey) : hash k t.uiHashTableSize < t.uiHashTableSize :=
  Nat.mod_lt _ h.pos

/-- The array around the element of a key: no entry before or behind it has the
hash of the key. -/
structure Around (t : HashTable V) (k : HashKey) (as : List (Bucket V)) (b : Bucket V)
    (bs : List (Bucket V)) : Prop where
  array : t.pstHashTable = as ++ b :: bs
  index : as.length = hash k t.uiHashTableSize
  before : ∀ e ∈ as.flatMap Bucket.entries, hash e.1 t.uiHashTableSize ≠
    hash k t.uiHashTableSize
  behind : ∀ e ∈ bs.flatMap Bucket.entries, hash e.1 t.uiHashTableSize ≠
    hash k t.uiHashTableSize

theorem Wf.around (h : t.Wf) (k : HashKey) : ∃ as b bs, t.Around k as b bs := by
  have hlt : hash k t.uiHashTableSize < t.pstHashTable.length := h.length ▸ hash_lt h k
  have harray : t.pstHashTable = t.pstHashTable.take (hash k t.uiHashTableSize) ++
      t.pstHashTable[hash k t.uiHashTableSize] ::
        t.pstHashTable.drop (hash k t.uiHashTableSize + 1) := by
    rw [← drop_eq_getElem_cons hlt, take_append_drop]
  refine ⟨_, _, _, harray, ?_, fun e he => ?_, fun e he => ?_⟩
  · rw [length_take, Nat.min_eq_left hlt.le]
  · obtain ⟨b, hb, he⟩ := mem_flatMap.mp he
    obtain ⟨i, hi, hib⟩ := mem_take_iff_getElem.mp hb
    have hb? : t.pstHashTable[i]? = some b := List.getElem?_eq_some_iff.mpr ⟨_, hib⟩
    rw [h.placed i b hb? e he]
    exact ((Nat.lt_min.mp hi).1).ne
  · obtain ⟨b, hb, he⟩ := mem_flatMap.mp he
    obtain ⟨i, hi, hib⟩ := mem_drop_iff_getElem.mp hb
    have hb? : t.pstHashTable[hash k t.uiHashTableSize + 1 + i]? = some b :=
      List.getElem?_eq_some_iff.mpr ⟨_, hib⟩
    rw [h.placed _ b hb? e he]
    omega

namespace Around

variable {as bs : List (Bucket V)} {b : Bucket V}
variable {t' : HashTable V} {e : HashKey × V}

theorem getElem? (h : t.Around k as b bs) :
    t.pstHashTable[hash k t.uiHashTableSize]? = some b := by
  rw [h.array, ← h.index, getElem?_append_right le_rfl, Nat.sub_self]
  rfl

theorem set (h : t.Around k as b bs) (b' : Bucket V) :
    t.pstHashTable.set (hash k t.uiHashTableSize) b' = as ++ b' :: bs := by
  rw [h.array, ← h.index, set_append_right _ _ le_rfl, Nat.sub_self]
  rfl

theorem entries (h : t.Around k as b bs) :
    t.entries = as.flatMap Bucket.entries ++ (b.entries ++ bs.flatMap Bucket.entries) := by
  rw [HashTable.entries, h.array, flatMap_append, flatMap_cons]

theorem write (h : t.Around k as b bs) (ht : t.Wf) {b' : Bucket V}
    (hsize : t'.uiHashTableSize = t.uiHashTableSize) (harray : t'.pstHashTable = as ++ b' :: bs)
    (hplaced : ∀ e ∈ b'.entries, hash e.1 t.uiHashTableSize = hash k t.uiHashTableSize)
    (hused : t'.uiUsedCount + b.ucUsed = t.uiUsedCount + b'.ucUsed)
    (hconflict : t'.uiConflict + b.conflicts = t.uiConflict + b'.conflicts) :
    t'.Wf ∧ t'.entries =
      as.flatMap Bucket.entries ++ (b'.entries ++ bs.flatMap Bucket.entries) := by
  refine ⟨⟨hsize ▸ ht.pos, ?_, fun i c hc e he => ?_, ?_, ?_⟩, ?_⟩
  · rw [harray, hsize, ← ht.length, h.array]
    simp
  · rw [hsize]
    rw [harray] at hc
    by_cases hi : i = as.length
    · rw [hi, getElem?_append_right le_rfl, Nat.sub_self] at hc
      obtain rfl : b' = c := some.inj hc
      rw [hi, h.index]
      exact hplaced e he
    · refine ht.placed i c ?_ e he
      rw [h.array, ← hc]
      rcases Nat.lt_or_gt_of_ne hi with hlt | hgt
      · rw [getElem?_append_left hlt, getElem?_append_left hlt]
      · rw [getElem?_append_right hgt.le, getElem?_append_right hgt.le,
          getElem?_cons, getElem?_cons, if_neg (by omega), if_neg (by omega)]
  · have hcount := ht.usedCount
    rw [h.array, map_append, map_cons, sum_append, sum_cons] at hcount
    rw [harray, map_append, map_cons, sum_append, sum_cons]
    omega
  · have hcount := ht.conflict
    rw [h.array, map_append, map_cons, sum_append, sum_cons] at hcount
    rw [harray, map_append, map_cons, sum_append, sum_cons]
    omega
  · rw [HashTable.entries, harray, flatMap_append, flatMap_cons]

theorem ucUsed_le (h : t.Around k as b bs) (ht : t.Wf) : b.ucUsed ≤ t.uiUsedCount := by
  rw [ht.usedCount, h.array, map_append, map_cons, sum_append, sum_cons]
  omega

theorem conflicts_le (h : t.Around k as b bs) (ht : t.Wf) : b.conflicts ≤ t.uiConflict := by
  rw [ht.conflict, h.array, map_append, map_cons, sum_append, sum_cons]
  omega

theorem placed (h : t.Around k as b bs) (ht : t.Wf) (he : e ∈ b.entries) :
    hash e.1 t.uiHashTableSize = hash k t.uiHashTableSize :=
  ht.placed _ b h.getElem? e he

theorem ne_before (h : t.Around k as b bs) (he : e ∈ as.flatMap Bucket.entries) : e.1 ≠ k := by
  rintro rfl
  exact h.before e he rfl

theorem ne_behind (h : t.Around k as b bs) (he : e ∈ bs.flatMap Bucket.entries) : e.1 ≠ k := by
  rintro rfl
  exact h.behind e he rfl

theorem find (h : t.Around k as b bs) : t.entries.find k = Multimap.find b.entries k := by
  have hbefore : (as.flatMap Bucket.entries).find? (fun e => decide (e.1 = k)) = none := by
    rw [find?_eq_none]
    intro e he
    simpa using h.ne_before he
  have hbehind : (bs.flatMap Bucket.entries).find? (fun e => decide (e.1 = k)) = none := by
    rw [find?_eq_none]
    intro e he
    simpa using h.ne_behind he
  rw [Multimap.find, Multimap.find, h.entries, find?_append, find?_append, hbefore,
    hbehind, none_or, or_none]

theorem erase (h : t.Around k as b bs) : t.entries.erase k =
    as.flatMap Bucket.entries ++ (Multimap.erase b.entries k ++ bs.flatMap Bucket.entries) := by
  rw [Multimap.erase, h.entries, eraseP_append_right _ fun e he => by
    simpa using h.ne_before he]
  congr 1
  by_cases hb : ∃ e ∈ b.entries, e.1 = k
  · obtain ⟨e, he, hek⟩ := hb
    exact eraseP_append_left (by simpa using hek) _ he
  · have hnone : ∀ e ∈ b.entries, ¬ decide (e.1 = k) = true := fun e he => by
      simpa using fun hek => hb ⟨e, he, hek⟩
    rw [eraseP_append_right _ hnone, Multimap.erase, eraseP_of_forall_not hnone,
      eraseP_of_forall_not fun e he => by simpa using h.ne_behind he]

theorem linked (h : t.Around e.1 as b bs) (ht : t.Wf) (b' : Bucket V)
    (hsize : t'.uiHashTableSize = t.uiHashTableSize) (harray : t'.pstHashTable = as ++ b' :: bs)
    (hentries : b'.entries = b.entries ++ [e])
    (hused : t'.uiUsedCount + b.ucUsed = t.uiUsedCount + b'.ucUsed)
    (hconflict : t'.uiConflict + b.conflicts = t.uiConflict + b'.conflicts) :
    t'.Wf ∧ Multimap.Equiv t'.entries (t.entries ++ [e]) := by
  have hplaced : ∀ f ∈ b'.entries, hash f.1 t.uiHashTableSize = hash e.1 t.uiHashTableSize := by
    intro f hf
    rw [hentries] at hf
    rcases mem_append.mp hf with hf | hf
    · exact h.placed ht hf
    · rw [mem_singleton.mp hf]
  obtain ⟨hwf, heq⟩ := h.write ht hsize harray hplaced hused hconflict
  refine ⟨hwf, ?_⟩
  rw [heq, hentries, h.entries, append_assoc, append_assoc, append_assoc]
  refine (Multimap.Equiv.refl _).append ((Multimap.Equiv.refl _).append ?_)
  refine Multimap.Equiv.append_comm fun f hf g hg => ?_
  rw [mem_singleton.mp hf]
  exact (h.ne_behind hg).symm

theorem erased (h : t.Around k as b bs) (ht : t.Wf) (b' : Bucket V)
    (hsize : t'.uiHashTableSize = t.uiHashTableSize) (harray : t'.pstHashTable = as ++ b' :: bs)
    (herase : b'.entries = Multimap.erase b.entries k)
    (hused : t'.uiUsedCount + b.ucUsed = t.uiUsedCount + b'.ucUsed)
    (hconflict : t'.uiConflict + b.conflicts = t.uiConflict + b'.conflicts) :
    t'.Wf ∧ t'.entries = t.entries.erase k := by
  rw [h.erase, ← herase]
  refine h.write ht hsize harray (fun e he => ?_) hused hconflict
  rw [herase] at he
  exact h.placed ht (mem_of_mem_eraseP he)

end Around

/-! ## The operations -/

theorem wf_empty {iSize : Nat} (h : 0 < iSize) (b : Bool) : (empty iSize b : HashTable V).Wf where
  pos := h
  length := length_replicate
  placed i c hc e he := by
    rw [empty, getElem?_replicate] at hc
    split at hc
    · obtain rfl := some.inj hc
      cases he
    · cases hc
  usedCount := by simp [empty, Bucket.ucUsed]
  conflict := by simp [empty, Bucket.conflicts]

theorem entries_empty (iSize : Nat) (b : Bool) : (empty iSize b : HashTable V).entries = [] := by
  simp [entries, empty, Bucket.entries]

theorem wf_newHashTable (iSize : Int) (b : Bool) : (newHashTable iSize b : HashTable V).Wf := by
  refine wf_empty ?_ b
  split <;> omega

theorem place_spec (h : t.Wf) (e : HashKey × V) :
    (t.place e).Wf ∧ Multimap.Equiv (t.place e).entries (t.entries ++ [e]) := by
  obtain ⟨as, b, bs, hb⟩ := h.around e.1
  cases b with
  | unused =>
    have hplace : t.place e = { t with
        pstHashTable := as ++ .used e [] :: bs
        uiUsedCount := t.uiUsedCount + 1 } := by
      simp only [place, hb.getElem?, hb.set]
    rw [hplace]
    exact hb.linked h (.used e []) rfl rfl rfl rfl rfl
  | used p next =>
    have hplace : t.place e = { t with
        pstHashTable := as ++ .used p (next ++ [e]) :: bs
        uiConflict := t.uiConflict + 1 } := by
      simp only [place, hb.getElem?, hb.set]
    have hlen : (Bucket.used p (next ++ [e])).conflicts = next.length + 1 :=
      length_append
    rw [hplace]
    exact hb.linked h (.used p (next ++ [e])) rfl rfl rfl rfl
      (by rw [hlen]; exact Nat.add_right_comm ..)

theorem foldl_place_spec (h : t.Wf) (es : List (HashKey × V)) :
    (es.foldl place t).Wf ∧ Multimap.Equiv (es.foldl place t).entries (t.entries ++ es) := by
  induction es generalizing t with
  | nil =>
    rw [append_nil]
    exact ⟨h, .refl _⟩
  | cons e es ih =>
    obtain ⟨hwf, hequiv⟩ := place_spec h e
    obtain ⟨hwf', hequiv'⟩ := ih hwf
    refine ⟨hwf', hequiv'.trans ?_⟩
    have hrest := hequiv.append (Multimap.Equiv.refl es)
    rw [append_assoc, singleton_append] at hrest
    exact hrest

theorem dilate_spec (t : HashTable V) :
    t.dilate.Wf ∧ Multimap.Equiv t.dilate.entries t.entries := by
  have hempty : (empty (Base.HashMap.nextSize t.uiHashTableSize) t.ucDilatationEnable :
      HashTable V).Wf := wf_empty (Base.HashMap.nextSize_pos _) _
  have hspec := foldl_place_spec hempty t.entries
  rw [entries_empty, nil_append] at hspec
  exact hspec

theorem inst_spec (h : t.Wf) (k : HashKey) (v : V) :
    (t.inst k v).Wf ∧ Multimap.Equiv (t.inst k v).entries (t.entries.insert k v) := by
  rw [inst]
  split
  · obtain ⟨hwf, hequiv⟩ := dilate_spec t
    obtain ⟨hwf', hequiv'⟩ := place_spec hwf (k, v)
    exact ⟨hwf', hequiv'.trans (hequiv.insert k v)⟩
  · exact place_spec h (k, v)

theorem find_spec (h : t.Wf) (k : HashKey) : t.find k = t.entries.find k := by
  obtain ⟨as, b, bs, hb⟩ := h.around k
  rw [find, hb.getElem?, hb.find]
  cases b <;> rfl

/-- The oldest entry of the key goes: the first one of its element, and then what
was behind it moves up, or one of the chain. -/
theorem del_spec (h : t.Wf) (k : HashKey) :
    ((t.del k).1.Wf ∧ (t.del k).1.entries = t.entries.erase k) ∧
      (t.del k).2 = t.entries.find k := by
  obtain ⟨as, b, bs, hb⟩ := h.around k
  rw [hb.find]
  cases b with
  | unused =>
    have hdel : t.del k = (t, none) := by simp only [del, hb.getElem?]
    rw [hdel]
    exact ⟨⟨h, (hb.entries.trans hb.erase.symm)⟩, rfl⟩
  | used p next =>
    have hused : 1 ≤ t.uiUsedCount := hb.ucUsed_le h
    have hconflict : next.length ≤ t.uiConflict := hb.conflicts_le h
    by_cases hp : p.1 = k
    · have herase : Multimap.erase (p :: next) k = next :=
        eraseP_cons_of_pos (by simpa using hp)
      have hfind : Multimap.find (p :: next) k = some p.2 := by
        rw [Multimap.find, find?_cons_of_pos (by simpa using hp), map_some]
      cases next with
      | nil =>
        have hdel : t.del k = ({ t with
            pstHashTable := as ++ .unused :: bs
            uiUsedCount := t.uiUsedCount - 1 }, some p.2) := by
          simp only [del, hb.getElem?, hb.set, if_pos hp]
        rw [hdel]
        exact ⟨hb.erased h .unused rfl rfl herase.symm
          (by simp only [Bucket.ucUsed]; omega) rfl, hfind.symm⟩
      | cons p1 next =>
        have hdel : t.del k = ({ t with
            pstHashTable := as ++ .used p1 next :: bs
            uiConflict := t.uiConflict - 1 }, some p.2) := by
          simp only [del, hb.getElem?, hb.set, if_pos hp]
        rw [hdel]
        rw [length_cons] at hconflict
        exact ⟨hb.erased h (.used p1 next) rfl rfl herase.symm rfl
          (by simp only [Bucket.conflicts, length_cons]; omega), hfind.symm⟩
    · have hp' : ¬ decide (p.1 = k) = true := by simpa using hp
      have herase : Multimap.erase (p :: next) k =
          p :: next.eraseP fun q => decide (q.1 = k) := eraseP_cons_of_neg hp'
      have hfind : Multimap.find (p :: next) k =
          (next.find? fun q => decide (q.1 = k)).map Prod.snd :=
        congrArg (Option.map Prod.snd) (find?_cons_of_neg hp')
      cases hq : next.find? fun q => decide (q.1 = k) with
      | none =>
        have hdel : t.del k = (t, none) := by
          simp only [del, hb.getElem?, if_neg hp, hq]
        have hsame : (next.eraseP fun q => decide (q.1 = k)) = next :=
          eraseP_of_forall_not (find?_eq_none.mp hq)
        rw [hq] at hfind
        rw [hsame] at herase
        rw [hdel, hb.erase, hb.entries]
        exact ⟨⟨h, congrArg _ (congrArg (· ++ _) herase.symm)⟩, hfind.symm⟩
      | some p1 =>
        have hdel : t.del k = ({ t with
            pstHashTable :=
              as ++ .used p (next.eraseP fun q => decide (q.1 = k)) :: bs
            uiConflict := t.uiConflict - 1 }, some p1.2) := by
          simp only [del, hb.getElem?, hb.set, if_neg hp, hq]
        have hlen : (next.eraseP fun q => decide (q.1 = k)).length + 1 = next.length := by
          have hmem := mem_of_find?_eq_some hq
          rw [length_eraseP_of_mem hmem (find?_some hq)]
          exact Nat.sub_add_cancel (length_pos_of_mem hmem)
        rw [hq] at hfind
        rw [hdel]
        exact ⟨hb.erased h (.used p (next.eraseP fun q => decide (q.1 = k))) rfl rfl
          herase.symm rfl (by simp only [Bucket.conflicts]; omega), hfind.symm⟩

theorem clear_spec (h : t.Wf) : t.clear.1.Wf ∧ t.clear.1.entries = [] ∧
    t.clear.2.Perm (t.entries.map Prod.snd) := by
  refine ⟨⟨h.pos, ?_, fun i b hb e he => ?_, ?_, ?_⟩, ?_, ?_⟩
  · rw [clear, length_map]
    exact h.length
  · rw [clear, getElem?_map, map_eq_some_iff] at hb
    obtain ⟨c, -, rfl⟩ := hb
    cases he
  · simp [clear, Bucket.ucUsed]
  · simp [clear, Bucket.conflicts]
  · rw [entries, clear, flatMap_map]
    exact flatMap_eq_nil_iff.mpr fun _ _ => rfl
  · rw [clear, entries, map_flatMap]
    refine List.Perm.flatMap_left _ fun b _ => ?_
    cases b with
    | unused => exact .refl _
    | used p next => exact perm_append_singleton ..

theorem size_spec (h : t.Wf) : t.size = t.entries.length := by
  rw [size, h.usedCount, h.conflict, entries, length_flatMap]
  generalize t.pstHashTable = bs
  induction bs with
  | nil => rfl
  | cons b bs ih =>
    simp only [map_cons, sum_cons, b.length_entries, ← ih]
    omega

theorem isEmpty_spec (h : t.Wf) : t.isEmpty = true ↔ t.entries = [] := by
  rw [isEmpty, beq_iff_eq, h.usedCount, entries,
    List.sum_eq_zero_iff_forall_eq_nat, flatMap_eq_nil_iff, List.forall_mem_map]
  refine forall₂_congr fun b _ => ?_
  cases b with
  | unused => exact iff_of_true rfl rfl
  | used p next => exact iff_of_false Nat.one_ne_zero (cons_ne_nil _ _)

/-! ## Sequences of operations -/

/-- The calls of `hash_table_class_t`. -/
inductive Op (V : Type) where
  | inst (pcKey : HashKey) (pValue : V)
  | del (pcKey : HashKey)
  | clear
  | find (pcKey : HashKey)
  | size
  | empty

/-- What they return: a deletion the value that it frees. -/
inductive Out (V : Type) where
  | value (v : Option V)
  | count (n : Nat)
  | flag (b : Bool)
deriving DecidableEq

/-- A call of the table. -/
def step (t : HashTable V) : Op V → Option (HashTable V × List (Out V))
  | .inst k v => some (t.inst k v, [])
  | .del k => some ((t.del k).1, [.value (t.del k).2])
  | .clear => some (t.clear.1, [])
  | .find k => some (t, [.value (t.find k)])
  | .size => some (t, [.count t.size])
  | .empty => some (t, [.flag t.isEmpty])

/-- The same of a multimap, whose entries are the live ones: an insertion puts the
value behind all others, a key finds its oldest value and a deletion takes it
away. -/
def specStep (m : Multimap HashKey V) :
    Op V → Option (Multimap HashKey V × List (Out V))
  | .inst k v => some (m.insert k v, [])
  | .del k => some (m.erase k, [.value (m.find k)])
  | .clear => some ([], [])
  | .find k => some (m, [.value (m.find k)])
  | .size => some (m, [.count m.length])
  | .empty => some (m, [.flag m.isEmpty])

/-- The table stands for the multimap. -/
structure Refines (t : HashTable V) (m : Multimap HashKey V) : Prop where
  wf : t.Wf
  equiv : Multimap.Equiv t.entries m

namespace Refines

variable {m : Multimap HashKey V}

theorem init (iSize : Int) (b : Bool) : Refines (newHashTable iSize b : HashTable V) [] := by
  refine ⟨wf_newHashTable iSize b, ?_⟩
  rw [newHashTable, entries_empty]
  exact .refl _

theorem find (h : t.Refines m) (k : HashKey) : t.find k = m.find k :=
  (find_spec h.wf k).trans (h.equiv.find k)

theorem size (h : t.Refines m) : t.size = m.length :=
  (size_spec h.wf).trans h.equiv.length_eq

theorem isEmpty (h : t.Refines m) : t.isEmpty = m.isEmpty := by
  rw [Bool.eq_iff_iff, isEmpty_spec h.wf, List.isEmpty_iff, ← length_eq_zero_iff,
    ← length_eq_zero_iff, h.equiv.length_eq]

theorem inst (h : t.Refines m) (k : HashKey) (v : V) : (t.inst k v).Refines (m.insert k v) := by
  obtain ⟨hwf, hequiv⟩ := inst_spec h.wf k v
  exact ⟨hwf, hequiv.trans (h.equiv.insert k v)⟩

theorem del (h : t.Refines m) (k : HashKey) :
    (t.del k).1.Refines (m.erase k) ∧ (t.del k).2 = m.find k := by
  obtain ⟨⟨hwf, hentries⟩, hvalue⟩ := del_spec h.wf k
  exact ⟨⟨hwf, hentries ▸ h.equiv.erase k⟩, hvalue.trans (h.equiv.find k)⟩

theorem clear (h : t.Refines m) : t.clear.1.Refines [] ∧ t.clear.2.Perm (m.map Prod.snd) := by
  obtain ⟨hwf, hentries, hfreed⟩ := clear_spec h.wf
  exact ⟨⟨hwf, hentries ▸ .refl _⟩, hfreed.trans (h.equiv.perm.map _)⟩

theorem step (h : t.Refines m) (op : Op V) : ∃ t' m' o, t.step op = some (t', o) ∧
    specStep m op = some (m', o) ∧ t'.Refines m' := by
  cases op with
  | inst k v => exact ⟨_, _, _, rfl, rfl, h.inst k v⟩
  | del k =>
    obtain ⟨hrefines, hvalue⟩ := h.del k
    refine ⟨_, _, _, rfl, ?_, hrefines⟩
    rw [hvalue]
    rfl
  | clear => exact ⟨_, _, _, rfl, rfl, h.clear.1⟩
  | find k =>
    refine ⟨_, _, _, rfl, ?_, h⟩
    rw [h.find]
    rfl
  | size =>
    refine ⟨_, _, _, rfl, ?_, h⟩
    rw [h.size]
    rfl
  | empty =>
    refine ⟨_, _, _, rfl, ?_, h⟩
    rw [h.isEmpty]
    rfl

theorem run (h : t.Refines m) (ops : List (Op V)) :
    ∃ t' m' os, Run.run HashTable.step t ops = some (t', os) ∧
      Run.run specStep m ops = some (m', os) ∧ t'.Refines m' := by
  refine Run.simulates_along (P := fun _ _ => True) (fun t m op hr _ => hr.step op) h ?_
  exact Run.along_of_forall (P := fun _ => True) (fun _ _ => trivial) t

end Refines

end HashTable

end Honyar.LocalScene
