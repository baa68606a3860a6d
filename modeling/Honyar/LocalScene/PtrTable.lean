import Honyar.LocalScene.HashTable
import Honyar.LocalScene.Index

/-!
# The table of chains

`ptr_hash.c` keeps a chain of nodes for each text: the value of the hash table is
the head of the chain, and a new node is linked in behind the head.  An entry of
the hash table is there as long as its chain has a node.

`PtrHash`, the list of all nodes that the engine works with, says the same of
every text and id (`Files`).  Both tables together are what `hash_tables_refine`
is about.
-/

namespace Honyar.LocalScene

open CText Function
open Base (HashKey)
open List

/-- `ptr_hash_table_class_t`: the hash table, which leads to the heads, and the
nodes behind each head. -/
structure PtrTable where
  stHash : HashTable Nat
  nodes : Nat → List PtrNode
  heap : Nat

namespace PtrTable

/-- `new_ptr_hash_table`. -/
def newPtrHashTable : PtrTable := ⟨.newHashTable 0 true, fun _ => [], 0⟩

/-- `free_hash_value`. -/
def freeHashValue (p : PtrTable) (pHashValue : Nat) : PtrTable :=
  { p with nodes := Function.update p.nodes pHashValue [] }

/-- The node is of this id. -/
def hasId (paId : CText) (n : PtrNode) : Bool := strncmpEq indexMaxLen n.acId paId

/-- `ptr_hash_inst`. -/
def inst (p : PtrTable) (pcKey : HashKey) (pValue : PtrNode) : PtrTable :=
  match p.stHash.find pcKey with
  | none =>
    { stHash := p.stHash.inst pcKey p.heap
      nodes := Function.update p.nodes p.heap [pValue]
      heap := p.heap + 1 }
  | some head => { p with nodes := Function.update p.nodes head (pValue :: p.nodes head) }

/-- `ptr_hash_del_all`. -/
def delAll (p : PtrTable) (pcKey : HashKey) : PtrTable :=
  let r := p.stHash.del pcKey
  match r.2 with
  | none => { p with stHash := r.1 }
  | some head => { p with stHash := r.1 }.freeHashValue head

/-- `ptr_hash_del`: the first node of the id, and the entry when no node is
left. -/
def del (p : PtrTable) (pcKey : HashKey) (paId : CText) : PtrTable :=
  match p.stHash.find pcKey with
  | none => p
  | some head =>
    if (p.nodes head).any (hasId paId) then
      let ns := (p.nodes head).eraseP (hasId paId)
      let p := { p with nodes := Function.update p.nodes head ns }
      if ns = [] then p.delAll pcKey else p
    else p

/-- `ptr_hash_find_all`. -/
def findAll (p : PtrTable) (pcKey : HashKey) : Option (List PtrNode) :=
  (p.stHash.find pcKey).map p.nodes

/-- `ptr_hash_find`. -/
def find (p : PtrTable) (pcKey : HashKey) (paId : CText) : Option PtrNode :=
  (p.stHash.find pcKey).bind fun head => (p.nodes head).find? (hasId paId)

/-- `clear` of the class it extends. -/
def clear (p : PtrTable) : PtrTable :=
  p.stHash.clear.2.foldl freeHashValue { p with stHash := p.stHash.clear.1 }

end PtrTable

/-! ## The list of all nodes -/

section

variable {h : PtrHash} {key key' paId : CText} {n : PtrNode}

theorem ptrHashFind_eq (h : PtrHash) (key paId : CText) :
    ptrHashFind h key paId = (ptrHashFindAll h key).find? (PtrTable.hasId paId) := by
  have hfor : PtrNode.isFor key paId =
      fun f => decide ((f.1 == key) = true ∧ (PtrTable.hasId paId ∘ Prod.snd) f = true) := by
    funext f
    rw [Bool.decide_and, Bool.decide_eq_true, Bool.decide_eq_true]
    rfl
  rw [ptrHashFind, ptrHashFindAll, find?_map, find?_filter, hfor]

theorem ptrHashFindAll_inst (h : PtrHash) (key key' : CText) (n : PtrNode) :
    ptrHashFindAll (ptrHashInst h key n) key' =
      if key = key' then n :: ptrHashFindAll h key' else ptrHashFindAll h key' := by
  rw [ptrHashFindAll, ptrHashInst, filter_cons]
  by_cases hk : key = key'
  · rw [if_pos hk, if_pos (by simpa using hk)]
    rfl
  · rw [if_neg hk, if_neg (by simpa using hk)]
    rfl

theorem ptrHashFindAll_del (h : PtrHash) (key paId key' : CText) :
    ptrHashFindAll (ptrHashDel h key paId) key' =
      if key = key' then (ptrHashFindAll h key').eraseP (PtrTable.hasId paId)
      else ptrHashFindAll h key' := by
  induction h with
  | nil => split <;> rfl
  | cons f h ih =>
    have hcons : ∀ h : PtrHash, ptrHashFindAll (f :: h) key' =
        if f.1 = key' then f.2 :: ptrHashFindAll h key' else ptrHashFindAll h key' :=
      fun h => ptrHashFindAll_inst h f.1 key' f.2
    rw [ptrHashDel] at ih
    rw [ptrHashDel, hcons h]
    by_cases hfor : PtrNode.isFor key paId f = true
    · have hkey : f.1 = key := by
        rw [PtrNode.isFor, Bool.and_eq_true, beq_iff_eq] at hfor
        exact hfor.1
      have hid : PtrTable.hasId paId f.2 = true := by
        rw [PtrNode.isFor, Bool.and_eq_true] at hfor
        exact hfor.2
      rw [eraseP_cons_of_pos hfor]
      split
      · rename_i hk
        rw [if_pos (hkey.trans hk), eraseP_cons_of_pos hid]
      · rename_i hk
        rw [if_neg fun hf => hk (hkey.symm.trans hf)]
    · rw [eraseP_cons_of_neg hfor, hcons, ih]
      by_cases hk : key = key'
      · rw [if_pos hk, if_pos hk]
        split
        · rename_i hf
          have hid : ¬ PtrTable.hasId paId f.2 = true := by
            intro hid
            rw [PtrNode.isFor, Bool.and_eq_true, beq_iff_eq] at hfor
            exact hfor ⟨hf.trans hk.symm, hid⟩
          rw [eraseP_cons_of_neg hid]
        · rfl
      · rw [if_neg hk, if_neg hk]

theorem ptrHashFindAll_filter (h : PtrHash) (key key' : CText) :
    ptrHashFindAll (h.filter fun f => f.1 ≠ key) key' =
      if key = key' then [] else ptrHashFindAll h key' := by
  rw [ptrHashFindAll, ptrHashFindAll, filter_filter]
  split
  · rename_i hk
    subst hk
    rw [map_eq_nil_iff, filter_eq_nil_iff]
    intro f _
    simp
  · rename_i hk
    congr 1
    refine filter_congr fun f _ => ?_
    by_cases hf : f.1 = key'
    · simp [hf, Ne.symm hk]
    · simp [hf]

theorem ptrHashFindAll_ne_nil : ptrHashFindAll h key ≠ [] ↔ key ∈ h.map Prod.fst := by
  rw [ptrHashFindAll, ne_eq, map_eq_nil_iff, filter_eq_nil_iff]
  simp

end

/-! ## What the table keeps -/

namespace PtrTable

variable {p p' : PtrTable} {m : Multimap HashKey Nat} {h h' : PtrHash} {k : HashKey} {a : Nat}

/-- The table has one entry for each text under which a node is filed, and behind
its head the chain of the text. -/
structure Files (p : PtrTable) (m : Multimap HashKey Nat) (h : PtrHash) : Prop where
  table : p.stHash.Refines m
  keys : (m.map Prod.fst).Nodup
  heads : (m.map Prod.snd).Nodup
  below : ∀ e ∈ m, e.2 < p.heap
  chain : ∀ e ∈ m, p.nodes e.2 = ptrHashFindAll h e.1.1 ∧ p.nodes e.2 ≠ []
  filed : ∀ key, ptrHashFindAll h key ≠ [] → ∃ e ∈ m, e.1.1 = key

namespace Files

theorem init : Files newPtrHashTable [] [] where
  table := .init 0 true
  keys := nodup_nil
  heads := nodup_nil
  below _ he := absurd he not_mem_nil
  chain _ he := absurd he not_mem_nil
  filed _ hne := absurd rfl hne

theorem lookup (hp : p.Files m h) (k : HashKey) :
    (p.stHash.find k = none ∧ ptrHashFindAll h k.1 = []) ∨
      ∃ a, p.stHash.find k = some a ∧ (k, a) ∈ m ∧ p.nodes a = ptrHashFindAll h k.1 ∧
        ptrHashFindAll h k.1 ≠ [] := by
  rw [hp.table.find]
  cases hfind : m.find k with
  | none =>
    refine .inl ⟨rfl, by_contra fun hne => ?_⟩
    obtain ⟨⟨k', a⟩, he, hk⟩ := hp.filed k.1 hne
    obtain rfl : k' = k := Subtype.ext hk
    rw [(Multimap.find_eq_some_iff hp.keys).mpr he] at hfind
    cases hfind
  | some a =>
    have he := (Multimap.find_eq_some_iff hp.keys).mp hfind
    obtain ⟨heq, hne⟩ := hp.chain _ he
    exact .inr ⟨a, rfl, he, heq, heq ▸ hne⟩

theorem key_eq (hp : p.Files m h) {e e' : HashKey × Nat} (he : e ∈ m) (he' : e' ∈ m)
    (heq : e.2 = e'.2) : e = e' := Keyed.eq_of_key_eq hp.heads he he' heq

theorem write (hp : p.Files m h) (hk : (k, a) ∈ m) (hne : ptrHashFindAll h' k.1 ≠ [])
    (hother : ∀ key, key ≠ k.1 → ptrHashFindAll h' key = ptrHashFindAll h key) :
    Files { p with nodes := update p.nodes a (ptrHashFindAll h' k.1) } m h' where
  table := hp.table
  keys := hp.keys
  heads := hp.heads
  below := hp.below
  chain e he := by
    by_cases hea : e.2 = a
    · obtain rfl := hp.key_eq he hk hea
      dsimp only
      rw [update_self]
      exact ⟨rfl, hne⟩
    · have hkey : e.1.1 ≠ k.1 := fun heq => hea (congrArg Prod.snd
        (Keyed.eq_of_key_eq hp.keys he hk (Subtype.ext heq)))
      dsimp only
      rw [update_of_ne hea, hother _ hkey]
      exact hp.chain e he
  filed key hkey := by
    by_cases heq : key = k.1
    · exact ⟨_, hk, heq.symm⟩
    · rw [hother key heq] at hkey
      exact hp.filed key hkey

theorem add (hp : p.Files m h) (hnone : ptrHashFindAll h k.1 = [])
    (hne : ptrHashFindAll h' k.1 ≠ [])
    (hother : ∀ key, key ≠ k.1 → ptrHashFindAll h' key = ptrHashFindAll h key) :
    Files
      { stHash := p.stHash.inst k p.heap
        nodes := update p.nodes p.heap (ptrHashFindAll h' k.1)
        heap := p.heap + 1 } (m.insert k p.heap) h' := by
  have hnew : ∀ e ∈ m, e.1.1 ≠ k.1 := by
    intro e he heq
    obtain ⟨hchain, hne⟩ := hp.chain e he
    rw [hchain, heq] at hne
    exact hne hnone
  refine ⟨hp.table.inst k p.heap, ?_, ?_, fun e he => ?_, fun e he => ?_, fun key hkey => ?_⟩
  · rw [Multimap.insert, map_append, nodup_append]
    refine ⟨hp.keys, nodup_singleton _, fun k₁ hk₁ k₂ hk₂ heq => ?_⟩
    obtain ⟨e, he, rfl⟩ := mem_map.mp hk₁
    rw [map_singleton, mem_singleton] at hk₂
    exact hnew e he (by rw [heq, hk₂])
  · rw [Multimap.insert, map_append, nodup_append]
    refine ⟨hp.heads, nodup_singleton _, fun a₁ ha₁ a₂ ha₂ heq => ?_⟩
    obtain ⟨e, he, rfl⟩ := mem_map.mp ha₁
    rw [map_singleton, mem_singleton] at ha₂
    exact (hp.below e he).ne (heq.trans ha₂)
  · rcases mem_append.mp he with he | he
    · exact (hp.below e he).trans (Nat.lt_succ_self _)
    · rw [mem_singleton.mp he]
      exact Nat.lt_succ_self _
  · dsimp only
    rcases mem_append.mp he with he | he
    · rw [update_of_ne (hp.below e he).ne, hother _ (hnew e he)]
      exact hp.chain e he
    · rw [mem_singleton.mp he, update_self]
      exact ⟨rfl, hne⟩
  · by_cases heq : key = k.1
    · exact ⟨_, mem_append_right _ mem_cons_self, heq.symm⟩
    · rw [hother key heq] at hkey
      obtain ⟨e, he, hek⟩ := hp.filed key hkey
      exact ⟨e, mem_append_left _ he, hek⟩

theorem inst (hp : p.Files m h) (k : HashKey) (n : PtrNode) :
    ∃ m', (p.inst k n).Files m' (ptrHashInst h k.1 n) := by
  have hself : ptrHashFindAll (ptrHashInst h k.1 n) k.1 = n :: ptrHashFindAll h k.1 := by
    rw [ptrHashFindAll_inst, if_pos rfl]
  have hother : ∀ key, key ≠ k.1 →
      ptrHashFindAll (ptrHashInst h k.1 n) key = ptrHashFindAll h key := by
    intro key hne
    rw [ptrHashFindAll_inst, if_neg (Ne.symm hne)]
  have hne : ptrHashFindAll (ptrHashInst h k.1 n) k.1 ≠ [] := hself ▸ cons_ne_nil _ _
  rw [PtrTable.inst]
  rcases hp.lookup k with ⟨hfind, hnil⟩ | ⟨a, hfind, hk, hchain, -⟩
  · rw [hfind]
    have hadd := hp.add hnil hne hother
    rw [hself, hnil] at hadd
    exact ⟨_, hadd⟩
  · rw [hfind]
    have hwrite := hp.write hk hne hother
    rw [hself, ← hchain] at hwrite
    exact ⟨m, hwrite⟩

theorem remove {q : PtrTable} (hp : p.Files m h) (htable : q.stHash = p.stHash)
    (hheap : q.heap = p.heap) (hnodes : ∀ e ∈ m, e.1 ≠ k → q.nodes e.2 = p.nodes e.2)
    (hnil : ptrHashFindAll h' k.1 = [])
    (hother : ∀ key, key ≠ k.1 → ptrHashFindAll h' key = ptrHashFindAll h key) :
    (q.delAll k).Files (m.erase k) h' := by
  obtain ⟨hdel, hvalue⟩ := hp.table.del k
  rw [← htable] at hdel hvalue
  have hsub : (m.erase k).Sublist m := eraseP_sublist
  have hmem := fun e => @Multimap.mem_erase_iff _ _ _ m k hp.keys e
  have hfiles {r : PtrTable} (hr : r.stHash = (q.stHash.del k).1) (hrheap : r.heap = q.heap)
      (hrnodes : ∀ e ∈ m, e.1 ≠ k → r.nodes e.2 = q.nodes e.2) : r.Files (m.erase k) h' := by
    refine ⟨hr ▸ hdel, (hsub.map _).nodup hp.keys, (hsub.map _).nodup hp.heads,
      fun e he => ?_, fun e he => ?_, fun key hne => ?_⟩
    · rw [hrheap, hheap]
      exact hp.below e (hsub.subset he)
    · obtain ⟨he, hne⟩ := (hmem e).mp he
      rw [hrnodes e he hne, hnodes e he hne, hother _ fun heq => hne (Subtype.ext heq)]
      exact hp.chain e he
    · have hkey : key ≠ k.1 := fun heq => hne (heq ▸ hnil)
      rw [hother key hkey] at hne
      obtain ⟨e, he, hek⟩ := hp.filed key hne
      exact ⟨e, (hmem e).mpr ⟨he, fun heq => hkey (by rw [← hek, heq])⟩, hek⟩
  rw [PtrTable.delAll]
  cases hfreed : (q.stHash.del k).2 with
  | none => exact hfiles rfl rfl fun _ _ _ => rfl
  | some a =>
    refine hfiles rfl rfl fun e he hne => update_of_ne (fun heq => hne ?_) _ _
    -- the head that is freed is that of the text
    rw [hvalue] at hfreed
    have hk := (Multimap.find_eq_some_iff hp.keys).mp hfreed
    exact congrArg Prod.fst (hp.key_eq he hk heq)

theorem delAll (hp : p.Files m h) (k : HashKey) :
    (p.delAll k).Files (m.erase k) (h.filter fun f => f.1 ≠ k.1) := by
  refine hp.remove rfl rfl (fun _ _ _ => rfl) ?_ fun key hne => ?_
  · rw [ptrHashFindAll_filter, if_pos rfl]
  · rw [ptrHashFindAll_filter, if_neg (Ne.symm hne)]

theorem congr (hp : p.Files m h)
    (hall : ∀ key, ptrHashFindAll h' key = ptrHashFindAll h key) : p.Files m h' := by
  refine ⟨hp.table, hp.keys, hp.heads, hp.below, fun e he => ?_, fun key => ?_⟩
  · rw [hall]
    exact hp.chain e he
  · rw [hall]
    exact hp.filed key

theorem del (hp : p.Files m h) (k : HashKey) (paId : CText) :
    ∃ m', (p.del k paId).Files m' (ptrHashDel h k.1 paId) := by
  have hself : ptrHashFindAll (ptrHashDel h k.1 paId) k.1 =
      (ptrHashFindAll h k.1).eraseP (hasId paId) := by
    rw [ptrHashFindAll_del, if_pos rfl]
  have hother : ∀ key, key ≠ k.1 →
      ptrHashFindAll (ptrHashDel h k.1 paId) key = ptrHashFindAll h key := by
    intro key hne
    rw [ptrHashFindAll_del, if_neg (Ne.symm hne)]
  -- a deletion that finds no node changes no chain
  have hsame (hnone : ∀ n ∈ ptrHashFindAll h k.1, ¬ hasId paId n = true) :
      p.Files m (ptrHashDel h k.1 paId) := by
    refine hp.congr fun key => ?_
    by_cases hkey : key = k.1
    · rw [hkey, hself, eraseP_of_forall_not hnone]
    · exact hother key hkey
  rw [PtrTable.del]
  rcases hp.lookup k with ⟨hfind, hnil⟩ | ⟨a, hfind, hk, hchain, hne⟩
  · rw [hfind]
    exact ⟨m, hsame fun n hn => by rw [hnil] at hn; cases hn⟩
  · rw [hfind]
    dsimp only
    rw [hchain]
    split
    · split
      · rename_i hempty
        refine ⟨_, hp.remove rfl rfl (fun e he hne => ?_) (hself.trans hempty) hother⟩
        exact update_of_ne
          (fun heq => hne (congrArg Prod.fst (hp.key_eq he hk heq))) _ _
      · rename_i hleft
        have hwrite := hp.write hk (hself ▸ hleft) hother
        rw [hself] at hwrite
        exact ⟨m, hwrite⟩
    · rename_i hnone
      refine ⟨m, hsame fun n hn hid => hnone ?_⟩
      exact any_eq_true.mpr ⟨n, hn, hid⟩

theorem clear (hp : p.Files m h) : p.clear.Files [] [] := by
  have hfold : ∀ (as : List Nat) (q : PtrTable), (as.foldl freeHashValue q).stHash = q.stHash := by
    intro as
    induction as with
    | nil => exact fun _ => rfl
    | cons a as ih => exact fun q => ih (q.freeHashValue a)
  refine ⟨?_, nodup_nil, nodup_nil, fun _ he => absurd he not_mem_nil,
    fun _ he => absurd he not_mem_nil, fun _ hne => absurd rfl hne⟩
  rw [PtrTable.clear, hfold]
  exact hp.table.clear.1

theorem findAll (hp : p.Files m h) (k : HashKey) : p.findAll k =
    if ptrHashFindAll h k.1 = [] then none else some (ptrHashFindAll h k.1) := by
  rw [PtrTable.findAll]
  rcases hp.lookup k with ⟨hfind, hnil⟩ | ⟨a, hfind, -, hchain, hne⟩
  · rw [hfind, if_pos hnil]
    rfl
  · rw [hfind, if_neg hne, Option.map_some, hchain]

theorem find (hp : p.Files m h) (k : HashKey) (paId : CText) :
    p.find k paId = ptrHashFind h k.1 paId := by
  rw [PtrTable.find, ptrHashFind_eq]
  rcases hp.lookup k with ⟨hfind, hnil⟩ | ⟨a, hfind, -, hchain, -⟩
  · rw [hfind, hnil]
    rfl
  · rw [hfind, Option.bind_some, hchain]

theorem size (hp : p.Files m h) : p.stHash.size = (h.map Prod.fst).dedup.length := by
  have hinj : Function.Injective (Subtype.val : HashKey → CText) := Subtype.val_injective
  have hperm : ((m.map Prod.fst).map Subtype.val).Perm (h.map Prod.fst).dedup := by
    refine (perm_ext_iff_of_nodup (hp.keys.map hinj) (nodup_dedup _)).mpr fun key => ?_
    rw [mem_dedup, ← ptrHashFindAll_ne_nil, map_map, mem_map]
    constructor
    · rintro ⟨e, he, rfl⟩
      obtain ⟨hchain, hne⟩ := hp.chain e he
      exact hchain ▸ hne
    · intro hne
      exact hp.filed key hne
  rw [hp.table.size, ← hperm.length_eq, length_map, length_map]

theorem isEmpty (hp : p.Files m h) : p.stHash.isEmpty = h.isEmpty := by
  rw [hp.table.isEmpty, Bool.eq_iff_iff, List.isEmpty_iff, List.isEmpty_iff]
  constructor
  · rintro rfl
    by_contra hne
    obtain ⟨f, h', rfl⟩ := exists_cons_of_ne_nil hne
    obtain ⟨e, he, -⟩ := hp.filed f.1 (ptrHashFindAll_ne_nil.mpr mem_cons_self)
    cases he
  · rintro rfl
    rw [eq_nil_iff_forall_not_mem]
    intro e he
    obtain ⟨hchain, hne⟩ := hp.chain e he
    exact hne hchain

end Files

/-! ## Sequences of operations -/

/-- The calls of `ptr_hash_table_class_t`. -/
inductive Op where
  | inst (pcKey : HashKey) (pValue : PtrNode)
  | delAll (pcKey : HashKey)
  | del (pcKey : HashKey) (paId : CText)
  | clear
  | findAll (pcKey : HashKey)
  | find (pcKey : HashKey) (paId : CText)
  | size
  | empty

/-- What they return. -/
inductive Out where
  | chain (ns : Option (List PtrNode))
  | node (n : Option PtrNode)
  | count (n : Nat)
  | flag (b : Bool)
deriving DecidableEq

/-- A call of the table. -/
def step (p : PtrTable) : Op → Option (PtrTable × List Out)
  | .inst k n => some (p.inst k n, [])
  | .delAll k => some (p.delAll k, [])
  | .del k i => some (p.del k i, [])
  | .clear => some (p.clear, [])
  | .findAll k => some (p, [.chain (p.findAll k)])
  | .find k i => some (p, [.node (p.find k i)])
  | .size => some (p, [.count p.stHash.size])
  | .empty => some (p, [.flag p.stHash.isEmpty])

/-- The same of the list of all live nodes, the newest first.  A text and an id
find the newest node filed under both, and a deletion takes it away; the texts
are counted. -/
def specStep (h : PtrHash) : Op → Option (PtrHash × List Out)
  | .inst k n => some (ptrHashInst h k.1 n, [])
  | .delAll k => some (h.filter fun f => f.1 ≠ k.1, [])
  | .del k i => some (ptrHashDel h k.1 i, [])
  | .clear => some ([], [])
  | .findAll k => some (h, [.chain
      (if ptrHashFindAll h k.1 = [] then none else some (ptrHashFindAll h k.1))])
  | .find k i => some (h, [.node (ptrHashFind h k.1 i)])
  | .size => some (h, [.count (h.map Prod.fst).dedup.length])
  | .empty => some (h, [.flag h.isEmpty])

theorem Files.step (hp : p.Files m h) (op : Op) : ∃ p' h' o, p.step op = some (p', o) ∧
    specStep h op = some (h', o) ∧ ∃ m', p'.Files m' h' := by
  cases op with
  | inst k n => exact ⟨_, _, _, rfl, rfl, hp.inst k n⟩
  | delAll k => exact ⟨_, _, _, rfl, rfl, _, hp.delAll k⟩
  | del k i => exact ⟨_, _, _, rfl, rfl, hp.del k i⟩
  | clear => exact ⟨_, _, _, rfl, rfl, _, hp.clear⟩
  | findAll k =>
    refine ⟨_, _, _, rfl, ?_, _, hp⟩
    rw [hp.findAll]
    rfl
  | find k i =>
    refine ⟨_, _, _, rfl, ?_, _, hp⟩
    rw [hp.find]
    rfl
  | size =>
    refine ⟨_, _, _, rfl, ?_, _, hp⟩
    rw [hp.size]
    rfl
  | empty =>
    refine ⟨_, _, _, rfl, ?_, _, hp⟩
    rw [hp.isEmpty]
    rfl

theorem Files.run (hp : p.Files m h) (ops : List Op) :
    ∃ p' h' os, Run.run PtrTable.step p ops = some (p', os) ∧
      Run.run specStep h ops = some (h', os) ∧ ∃ m', p'.Files m' h' := by
  refine Run.simulates_along (P := fun _ _ => True)
    (R := fun p h => ∃ m, Files p m h) ?_ ⟨m, hp⟩ ?_
  · rintro p h op ⟨m, hp⟩ -
    exact hp.step op
  · exact Run.along_of_forall (P := fun _ => True) (fun _ _ => trivial) p

end PtrTable

/-! ## Both tables -/

/-- Every sequence of calls of `hashtable.c` returns what it returns of the
multimap of the live values: a key finds its oldest value, a deletion takes
exactly that one away, and the size is the number of live values.  Every sequence
of calls of `ptr_hash.c` returns what it returns of the list of the live nodes:
a key and an id find the newest node filed under both, a deletion takes exactly
that one away, and the size is the number of keys with a live node. -/
theorem hash_tables_refine :
    (∀ {V : Type} (iSize : Int) (iDilatationEnable : Bool) (ops : List (HashTable.Op V)),
      ∃ (t : HashTable V) (m : Multimap HashKey V) (os : List (HashTable.Out V)),
        Run.run HashTable.step (.newHashTable iSize iDilatationEnable) ops = some (t, os) ∧
        Run.run HashTable.specStep [] ops = some (m, os) ∧
        (∀ k, t.find k = m.find k) ∧ t.size = m.length) ∧
    ∀ ops : List PtrTable.Op, ∃ p h os,
      Run.run PtrTable.step .newPtrHashTable ops = some (p, os) ∧
      Run.run PtrTable.specStep [] ops = some (h, os) ∧
      (∀ k paId, p.find k paId = ptrHashFind h k.1 paId) ∧
      p.stHash.size = (h.map Prod.fst).dedup.length := by
  constructor
  · intro V iSize iDilatationEnable ops
    obtain ⟨t, m, os, hrun, hspec, hrefines⟩ :=
      (HashTable.Refines.init iSize iDilatationEnable).run ops
    exact ⟨t, m, os, hrun, hspec, hrefines.find, hrefines.size⟩
  · intro ops
    obtain ⟨p, h, os, hrun, hspec, m, hp⟩ := PtrTable.Files.init.run ops
    exact ⟨p, h, os, hrun, hspec, hp.find, hp.size⟩

namespace Sample

/-- Two nodes of two scenes under one text. -/
def twoNodes : List PtrTable.Op :=
  [.inst ⟨['k'], by decide⟩ ⟨0, ['1'], 0, .null⟩, .inst ⟨['k'], by decide⟩ ⟨1, ['2'], 1, .null⟩]

end Sample

/-- Two live nodes under one text are counted once. -/
theorem hash_tables_refine_not_size :
    ¬ ∀ (ops : List PtrTable.Op) (p : PtrTable) (h : PtrHash) (os : List PtrTable.Out),
      Run.run PtrTable.step .newPtrHashTable ops = some (p, os) →
      Run.run PtrTable.specStep [] ops = some (h, os) → p.stHash.size = h.length := by
  intro hsize
  have heq := hsize Sample.twoNodes _ _ _ rfl rfl
  revert heq
  decide

end Honyar.LocalScene
