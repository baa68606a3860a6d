import Honyar.Lib.Run
import Honyar.Lib.SingleList
import Mathlib.Algebra.BigOperators.Group.List.Basic
import Mathlib.Algebra.Ring.Nat

/-!
# The ledger of the heap

`base_malloc.c` keeps a record of every block it got from the system, and gives back only what it
has a record of.  The record is made behind the system's call, and struck out before it: between
the two a call of `realloc` can fail, and then the block is still there and its record is not.
`_base_malloc` alone does not make the ledger before it writes to it.
-/

namespace Honyar.Base

open Option List Function

/-- `heap_node_t` without its link. -/
structure HeapNode where
  pPtr : Nat
  uiSize : UInt32
deriving DecidableEq

/-- `heap_list_t`. -/
structure HeapList where
  nodes : SingleList HeapNode
  ulHeapUsage : Nat
  iHeapListCount : Int

inductive LedgerRet where
  | noErr
  | generalErr
  | notFoundErr
deriving DecidableEq

/-- The ledger and whether its lock was made, and beside them the blocks that were got from the
system and not given back, with the sizes asked for. -/
structure Heap where
  gPstHeapList : Option HeapList
  gPHeapListMutexLock : Bool
  blocks : Nat → Option Nat

/-- What the system does for a call: whether there is memory for the ledger, its lock and a record,
and the block it hands out. -/
structure HeapEnv where
  listMem : Bool
  mutexMem : Bool
  nodeMem : Bool
  ptr : Option Nat

namespace Heap

/-- A block is got from the system. -/
def acquire (p n : Nat) (h : Heap) : Heap :=
  { h with blocks := Function.update h.blocks p (some n) }

/-- A block is given back to it. -/
def release (p : Nat) (h : Heap) : Heap :=
  { h with blocks := Function.update h.blocks p none }

/-- The ledger is made where there is none. -/
def initList (e : HeapEnv) (h : Heap) : Option Heap :=
  match h.gPstHeapList with
  | some _ => some h
  | none => if e.listMem then some { h with gPstHeapList := some ⟨.empty, 0, 0⟩ } else none

/-- What the ledger says. -/
def records (h : Heap) : List HeapNode :=
  match h.gPstHeapList with
  | none => []
  | some l => l.nodes.items

/-- There is a lock, or one can be made, and there is memory for a record. -/
def canRecord (e : HeapEnv) (h : Heap) : Bool :=
  (h.gPHeapListMutexLock || e.mutexMem) && e.nodeMem

end Heap

/-- `_heap_node_tail_insert`; where there is no ledger, there is nothing to write to. -/
def heapNodeTailInsert (e : HeapEnv) (pPtr : Nat) (uiSize : UInt32) (h : Heap) :
    Option (Heap × LedgerRet) :=
  let h := { h with gPHeapListMutexLock := h.gPHeapListMutexLock || e.mutexMem }
  if h.gPHeapListMutexLock = false ∨ e.nodeMem = false then some (h, .generalErr)
  else do
    let l ← h.gPstHeapList
    let nodes ← l.nodes.tailInsert ⟨pPtr, uiSize⟩
    let l' : HeapList := ⟨nodes, l.ulHeapUsage + uiSize.toNat, l.iHeapListCount + 1⟩
    return ({ h with gPstHeapList := some l' }, .noErr)

/-- `_heap_node_del`. -/
def heapNodeDel (pPtr : Option Nat) (l : HeapList) : Option (HeapList × LedgerRet) := do
  let (nodes, found) ← l.nodes.delFirst fun n => some n.pPtr = pPtr
  match found with
  | none => return ({ l with nodes := nodes }, .notFoundErr)
  | some n => return (⟨nodes, l.ulHeapUsage - n.uiSize.toNat, l.iHeapListCount - 1⟩, .noErr)

/-- What the three functions do behind a call of the system that handed out a block: its record is
made, or it is given back. -/
def recordBlock (e : HeapEnv) (p : Nat) (uiSize : UInt32) (h : Heap) :
    Option (Heap × Option Nat) := do
  let (h, iRet) ← heapNodeTailInsert e p uiSize h
  if iRet = .noErr then return (h, some p) else return (h.release p, none)

/-- `_base_calloc`. -/
def baseCalloc (e : HeapEnv) (num size : UInt32) (h : Heap) : Option (Heap × Option Nat) :=
  match h.initList e with
  | none => some (h, none)
  | some h =>
    match e.ptr with
    | none => some (h, none)
    | some p => recordBlock e p (num * size) (h.acquire p (num.toNat * size.toNat))

/-- `_base_malloc`. -/
def baseMalloc (e : HeapEnv) (size : UInt32) (h : Heap) : Option (Heap × Option Nat) :=
  match e.ptr with
  | none => some (h, none)
  | some p => recordBlock e p size (h.acquire p size.toNat)

/-- `realloc` of the system.  Where it hands out nothing it leaves the block as it was, or gives it
back if nothing was asked for. -/
def sysRealloc (e : HeapEnv) (mem : Nat) (newsize : UInt32) (h : Heap) : Heap × Option Nat :=
  match e.ptr with
  | none => (if newsize = 0 then h.release mem else h, none)
  | some p => ((h.release mem).acquire p newsize.toNat, some p)

/-- `_base_realloc`. -/
def baseRealloc (e : HeapEnv) (mem : Option Nat) (newsize : UInt32) (h : Heap) :
    Option (Heap × Option Nat) :=
  match h.initList e with
  | none => some (h, none)
  | some h => do
    let l ← h.gPstHeapList
    let (l, iRet) ← heapNodeDel mem l
    let h := { h with gPstHeapList := some l }
    if iRet ≠ .noErr then return (h, none)
    else
      let m ← mem
      match sysRealloc e m newsize h with
      | (h, none) => return (h, none)
      | (h, some p) => recordBlock e p newsize h

/-- `_base_free`. -/
def baseFree (e : HeapEnv) (mem : Option Nat) (h : Heap) : Option (Heap × Option Nat) :=
  match h.initList e with
  | none => some (h, none)
  | some h => do
    let l ← h.gPstHeapList
    let (l, iRet) ← heapNodeDel mem l
    let h := { h with gPstHeapList := some l }
    if iRet ≠ .noErr then return (h, none)
    else
      let m ← mem
      return (h.release m, none)

inductive HeapCall where
  | calloc (e : HeapEnv) (num size : UInt32)
  | malloc (e : HeapEnv) (size : UInt32)
  | realloc (e : HeapEnv) (mem : Option Nat) (newsize : UInt32)
  | free (e : HeapEnv) (mem : Option Nat)

/-- A call with the pointer it returns, which is `NULL` for `_base_free`. -/
def heapStep (h : Heap) : HeapCall → Option (Heap × List (Option Nat))
  | .calloc e num size => (baseCalloc e num size h).map fun r => (r.1, [r.2])
  | .malloc e size => (baseMalloc e size h).map fun r => (r.1, [r.2])
  | .realloc e mem newsize => (baseRealloc e mem newsize h).map fun r => (r.1, [r.2])
  | .free e mem => (baseFree e mem h).map fun r => (r.1, [r.2])

/-- The program has just begun. -/
def noHeap : Heap := ⟨none, false, fun _ => none⟩

/-! ## What a call is to do -/

/-- The records are those of the blocks, each with its size, and the two counters are their number
and the sum of their sizes. -/
structure Exact (h : Heap) : Prop where
  nodup : (h.records.map HeapNode.pPtr).Nodup
  mem_iff : ∀ p n, (∃ r ∈ h.records, r.pPtr = p ∧ r.uiSize.toNat = n) ↔ h.blocks p = some n
  count : ∀ l ∈ h.gPstHeapList, l.iHeapListCount = h.records.length
  usage : ∀ l ∈ h.gPstHeapList, l.ulHeapUsage = (h.records.map fun r => r.uiSize.toNat).sum

/-- The system hands out no block that is there already, but may leave one where it is. -/
def Allocates (h : Heap) : HeapCall → Prop
  | .calloc e _ _ => ∀ p ∈ e.ptr, h.blocks p = none
  | .malloc e _ => ∀ p ∈ e.ptr, h.blocks p = none
  | .realloc e mem _ => ∀ p ∈ e.ptr, h.blocks p = none ∨ mem = some p
  | .free _ _ => True

/-- A call returns and leaves an exact ledger, in which the block of a failed reallocation stands as
before. -/
def KeepsLedger (h : Heap) (c : HeapCall) : Prop :=
  ∃ h' r, heapStep h c = some (h', [r]) ∧ Exact h' ∧
    ∀ e mem newsize, c = .realloc e (some mem) newsize → r = none → newsize ≠ 0 →
      mem ∈ h.records.map HeapNode.pPtr → mem ∈ h'.records.map HeapNode.pPtr

instance decidableAllocates (h : Heap) : (c : HeapCall) → Decidable (Allocates h c)
  | .calloc e _ _ => inferInstanceAs (Decidable (∀ p ∈ e.ptr, h.blocks p = none))
  | .malloc e _ => inferInstanceAs (Decidable (∀ p ∈ e.ptr, h.blocks p = none))
  | .realloc e mem _ => inferInstanceAs (Decidable (∀ p ∈ e.ptr, h.blocks p = none ∨ mem = some p))
  | .free _ _ => .isTrue trivial

/-- The sizes of a recorded `calloc` do not run over, `malloc` is not the call that would write the
first record, and a recorded block is not reallocated in vain. -/
def Provides (h : Heap) : HeapCall → Prop
  | .calloc e num size => (h.initList e).isSome = true → e.ptr.isSome = true →
      h.canRecord e = true → num.toNat * size.toNat < 2 ^ 32
  | .malloc e _ => h.gPstHeapList = none → e.ptr.isSome = true → h.canRecord e = false
  | .realloc e mem newsize => ∀ p ∈ mem, p ∈ h.records.map HeapNode.pPtr → newsize ≠ 0 →
      e.ptr.isSome = true ∧ h.canRecord e = true
  | .free _ _ => True

instance decidableProvides (h : Heap) : (c : HeapCall) → Decidable (Provides h c)
  | .calloc e num size => inferInstanceAs (Decidable ((h.initList e).isSome = true →
      e.ptr.isSome = true → h.canRecord e = true → num.toNat * size.toNat < 2 ^ 32))
  | .malloc e _ => decidable_of_iff
      (h.gPstHeapList.isNone = true → e.ptr.isSome = true → h.canRecord e = false)
      (by rw [Provides, isNone_iff_eq_none])
  | .realloc e mem newsize => inferInstanceAs (Decidable (∀ p ∈ mem,
      p ∈ h.records.map HeapNode.pPtr → newsize ≠ 0 → e.ptr.isSome = true ∧ h.canRecord e = true))
  | .free _ _ => .isTrue trivial

variable {h h' : Heap} {e : HeapEnv} {l l' : HeapList} {p : Nat} {n : UInt32}
  {ns ms : List HeapNode} {b b' : Nat → Option Nat}

/-! ## Records and blocks -/

/-- Records of blocks, each of its own. -/
structure Tallies (ns : List HeapNode) (b : Nat → Option Nat) : Prop where
  nodup : (ns.map HeapNode.pPtr).Nodup
  mem_iff : ∀ p n, (∃ r ∈ ns, r.pPtr = p ∧ r.uiSize.toNat = n) ↔ b p = some n

theorem Tallies.mem_map_iff (h : Tallies ns b) : p ∈ ns.map HeapNode.pPtr ↔ b p ≠ none := by
  constructor
  · intro hp
    obtain ⟨r, hr, rfl⟩ := List.mem_map.mp hp
    rw [(h.mem_iff r.pPtr r.uiSize.toNat).mp ⟨r, hr, rfl, rfl⟩]
    exact some_ne_none _
  · intro hp
    obtain ⟨n, hn⟩ := ne_none_iff_exists'.mp hp
    obtain ⟨r, hr, rfl, -⟩ := (h.mem_iff p n).mpr hn
    exact List.mem_map_of_mem hr

theorem Tallies.push (h : Tallies ns b) (hp : b p = none) (n : UInt32) :
    Tallies (ns ++ [⟨p, n⟩]) (Function.update b p (some n.toNat)) where
  nodup := by
    rw [map_append, nodup_append]
    refine ⟨h.nodup, nodup_singleton _, fun q hq r hr heq => ?_⟩
    obtain rfl : r = p := mem_singleton.mp hr
    exact h.mem_map_iff.mp hq (heq ▸ hp)
  mem_iff := by
    intro q k
    rw [update_apply]
    by_cases hq : q = p
    · subst hq
      rw [if_pos rfl]
      constructor
      · rintro ⟨r, hr, hrq, rfl⟩
        rcases mem_append.mp hr with hr | hr
        · exact absurd hp (h.mem_map_iff.mp (hrq ▸ List.mem_map_of_mem hr))
        · rw [mem_singleton.mp hr]
      · intro heq
        exact ⟨⟨q, n⟩, mem_append_right _ mem_cons_self, rfl, some.inj heq⟩
    · rw [if_neg hq, ← h.mem_iff]
      constructor
      · rintro ⟨r, hr, rfl, rfl⟩
        rcases mem_append.mp hr with hr | hr
        · exact ⟨r, hr, rfl, rfl⟩
        · exact absurd (by rw [mem_singleton.mp hr]) hq
      · rintro ⟨r, hr, hrq⟩
        exact ⟨r, mem_append_left _ hr, hrq⟩

theorem Tallies.cut {r : HeapNode} (h : Tallies (ns ++ r :: ms) b) :
    Tallies (ns ++ ms) (Function.update b r.pPtr none) := by
  have hnd := h.nodup
  rw [map_append, map_cons] at hnd
  obtain ⟨-, hndms, hdisj⟩ := nodup_append.mp hnd
  obtain ⟨hrms, -⟩ := nodup_cons.mp hndms
  have hrns : r.pPtr ∉ ns.map HeapNode.pPtr := fun hr => hdisj _ hr _ mem_cons_self rfl
  refine ⟨h.nodup.sublist ?_, fun q k => ?_⟩
  · refine List.Sublist.map _ ?_
    exact (List.Sublist.refl ns).append (sublist_cons_self r ms)
  · rw [update_apply]
    by_cases hq : q = r.pPtr
    · subst hq
      rw [if_pos rfl]
      refine iff_of_false ?_ fun hno => by cases hno
      rintro ⟨s, hs, hsr, -⟩
      rcases mem_append.mp hs with hs | hs
      · exact hrns (hsr ▸ List.mem_map_of_mem hs)
      · exact hrms (hsr ▸ List.mem_map_of_mem hs)
    · rw [if_neg hq, ← h.mem_iff]
      constructor
      · rintro ⟨s, hs, hsq⟩
        refine ⟨s, ?_, hsq⟩
        simp only [mem_append, mem_cons] at hs ⊢
        tauto
      · rintro ⟨s, hs, rfl, hk⟩
        refine ⟨s, ?_, rfl, hk⟩
        simp only [mem_append, mem_cons] at hs ⊢
        rcases hs with hs | rfl | hs
        · exact .inl hs
        · exact absurd rfl hq
        · exact .inr hs

/-- The counters of a ledger that is well formed. -/
structure HeapList.Counts (l : HeapList) : Prop where
  wf : l.nodes.Wf
  count : l.iHeapListCount = l.nodes.items.length
  usage : l.ulHeapUsage = (l.nodes.items.map fun r => r.uiSize.toNat).sum

theorem HeapList.Counts.empty : HeapList.Counts ⟨.empty, 0, 0⟩ := ⟨.empty, rfl, rfl⟩

theorem HeapList.Counts.push (h : l.Counts) (p : Nat) (n : UInt32) :
    ∃ nodes, l.nodes.tailInsert ⟨p, n⟩ = some nodes ∧
      nodes.items = l.nodes.items ++ [⟨p, n⟩] ∧
        HeapList.Counts ⟨nodes, l.ulHeapUsage + n.toNat, l.iHeapListCount + 1⟩ := by
  obtain ⟨nodes, hins, hwf, hitems⟩ := h.wf.tailInsert ⟨p, n⟩
  refine ⟨nodes, hins, hitems, hwf, ?_, ?_⟩
  · rw [hitems, h.count, length_append]
    rfl
  · rw [hitems, h.usage, map_append, sum_append]
    rfl

/-- A record that is looked for is struck out and counts no more, or there is none. -/
theorem HeapList.Counts.del (h : l.Counts) (mem : Option Nat) :
    (∀ r ∈ l.nodes.items, some r.pPtr ≠ mem) ∧ heapNodeDel mem l = some (l, .notFoundErr) ∨
      ∃ as r bs l', l.nodes.items = as ++ r :: bs ∧ some r.pPtr = mem ∧
        heapNodeDel mem l = some (l', .noErr) ∧ l'.Counts ∧ l'.nodes.items = as ++ bs := by
  rcases h.wf.delFirst (fun r => some r.pPtr = mem) with
    ⟨hall, hdel⟩ | ⟨as, r, bs, nodes, hitems, -, hr, hdel, hwf, hitems'⟩
  · refine .inl ⟨fun r hr => of_decide_eq_false (hall r hr), ?_⟩
    rw [heapNodeDel, hdel]
    rfl
  · have hcount := h.count
    have husage := h.usage
    rw [hitems] at hcount husage
    refine .inr ⟨as, r, bs, ⟨nodes, l.ulHeapUsage - r.uiSize.toNat, l.iHeapListCount - 1⟩, hitems,
      of_decide_eq_true hr, ?_, ⟨hwf, ?_, ?_⟩, hitems'⟩
    · rw [heapNodeDel, hdel]
      rfl
    · rw [hitems', hcount]
      simp only [length_append, length_cons]
      omega
    · rw [hitems', husage]
      simp only [map_append, map_cons, sum_append, sum_cons]
      omega

/-! ## One call -/

/-- The ledger is well formed, and its records are those of the blocks. -/
structure Kept (h : Heap) : Prop where
  counts : ∀ l ∈ h.gPstHeapList, l.Counts
  tallies : Tallies h.records h.blocks

theorem Heap.records_of (hl : h.gPstHeapList = some l) : h.records = l.nodes.items := by
  rw [Heap.records, hl]

theorem Kept.exact (hk : Kept h) : Exact h where
  nodup := hk.tallies.nodup
  mem_iff := hk.tallies.mem_iff
  count := fun l hl => by rw [(hk.counts l hl).count, Heap.records_of hl]
  usage := fun l hl => by rw [(hk.counts l hl).usage, Heap.records_of hl]

theorem Kept.initList (hk : Kept h) (e : HeapEnv) :
    h.initList e = none ∧ h.records = [] ∨
      ∃ h₁ l, h.initList e = some h₁ ∧ h₁.gPstHeapList = some l ∧ l.Counts ∧
        l.nodes.items = h.records ∧ h₁.blocks = h.blocks ∧ h₁.canRecord e = h.canRecord e := by
  rw [Heap.initList, Heap.records]
  cases hg : h.gPstHeapList with
  | some l => exact .inr ⟨h, l, rfl, hg, hk.counts l hg, rfl, rfl, rfl⟩
  | none =>
    by_cases he : e.listMem = true
    · exact .inr ⟨{ h with gPstHeapList := some ⟨.empty, 0, 0⟩ }, ⟨.empty, 0, 0⟩, if_pos he, rfl,
        .empty, rfl, rfl, rfl⟩
    · exact .inl ⟨if_neg he, rfl⟩

theorem recordBlock_of_not (hc : h.canRecord e = false) (p : Nat) (n : UInt32) :
    ∃ h', recordBlock e p n h = some (h', none) ∧ h'.gPstHeapList = h.gPstHeapList ∧
      h'.blocks = Function.update h.blocks p none := by
  refine ⟨{ h.release p with gPHeapListMutexLock := h.gPHeapListMutexLock || e.mutexMem }, ?_,
    rfl, rfl⟩
  have hfail : (h.gPHeapListMutexLock || e.mutexMem) = false ∨ e.nodeMem = false := by
    rwa [Heap.canRecord, Bool.and_eq_false_iff] at hc
  rw [recordBlock, heapNodeTailInsert, if_pos hfail]
  rfl

theorem recordBlock_of_none (hc : h.canRecord e = true) (hg : h.gPstHeapList = none) (p : Nat)
    (n : UInt32) : recordBlock e p n h = none := by
  have hgood : ¬((h.gPHeapListMutexLock || e.mutexMem) = false ∨ e.nodeMem = false) := by
    rw [Heap.canRecord, Bool.and_eq_true] at hc
    simp [hc.1, hc.2]
  rw [recordBlock, heapNodeTailInsert, if_neg hgood, hg]
  rfl

theorem recordBlock_of (hc : h.canRecord e = true) (hg : h.gPstHeapList = some l)
    (hl : l.Counts) (p : Nat) (n : UInt32) :
    ∃ h' l', recordBlock e p n h = some (h', some p) ∧ h'.gPstHeapList = some l' ∧ l'.Counts ∧
      l'.nodes.items = l.nodes.items ++ [⟨p, n⟩] ∧ h'.blocks = h.blocks := by
  have hgood : ¬((h.gPHeapListMutexLock || e.mutexMem) = false ∨ e.nodeMem = false) := by
    rw [Heap.canRecord, Bool.and_eq_true] at hc
    simp [hc.1, hc.2]
  obtain ⟨nodes, hins, hitems, hcounts⟩ := hl.push p n
  refine ⟨⟨some ⟨nodes, l.ulHeapUsage + n.toNat, l.iHeapListCount + 1⟩,
    h.gPHeapListMutexLock || e.mutexMem, h.blocks⟩, _, ?_, rfl, hcounts, hitems, rfl⟩
  rw [recordBlock, heapNodeTailInsert, if_neg hgood, hg]
  simp only [bind_eq_bind, bind_some, hins]
  rfl

theorem Kept.of (hg : h.gPstHeapList = some l) (hl : l.Counts) (hb : h.blocks = b)
    (ht : Tallies l.nodes.items b) : Kept h where
  counts := fun l' hl' => by
    obtain rfl : l = l' := some.inj (hg.symm.trans hl')
    exact hl
  tallies := by
    rw [Heap.records_of hg, hb]
    exact ht

/-- A call does what it is to do, and leaves what the next one needs. -/
def Done (h : Heap) (c : HeapCall) : Prop :=
  ∃ h' r, heapStep h c = some (h', [r]) ∧ Kept h' ∧
    ∀ e mem newsize, c = .realloc e (some mem) newsize → r = none → newsize ≠ 0 →
      mem ∈ h.records.map HeapNode.pPtr → mem ∈ h'.records.map HeapNode.pPtr

theorem Done.keepsLedger {c : HeapCall} (hd : Done h c) : KeepsLedger h c := by
  obtain ⟨h', r, hstep, hk, hrealloc⟩ := hd
  exact ⟨h', r, hstep, hk.exact, hrealloc⟩

theorem recordBlock_kept (hg : h.gPstHeapList = some l) (hl : l.Counts)
    (ht : Tallies l.nodes.items b) (hp : b p = none) {k : Nat}
    (hb : h.blocks = Function.update b p (some k)) (hk : h.canRecord e = true → n.toNat = k) :
    ∃ h' r, recordBlock e p n h = some (h', r) ∧ Kept h' ∧ (h.canRecord e = true → r = some p) := by
  by_cases hc : h.canRecord e = true
  · obtain ⟨h', l', hrec, hg', hl', hitems, hb'⟩ := recordBlock_of hc hg hl p n
    refine ⟨h', some p, hrec, .of hg' hl' (hb'.trans hb) ?_, fun _ => rfl⟩
    rw [hitems, ← hk hc]
    exact ht.push hp n
  · rw [Bool.not_eq_true] at hc
    obtain ⟨h', hrec, hg', hb'⟩ := recordBlock_of_not hc p n
    have hsame : h'.blocks = b := by
      rw [hb', hb, update_idem, ← hp, update_eq_self]
    exact ⟨h', none, hrec, .of (hg'.trans hg) hl hsame ht, fun hno => by rw [hc] at hno; cases hno⟩

theorem calloc_spec {num size : UInt32} (hk : Kept h) (ha : Allocates h (.calloc e num size)) :
    (Provides h (.calloc e num size) → Done h (.calloc e num size)) ∧
      (KeepsLedger h (.calloc e num size) → Provides h (.calloc e num size)) := by
  have hdone {h' : Heap} {r : Option Nat} (hcalloc : baseCalloc e num size h = some (h', r))
      (hk' : Kept h') : Done h (.calloc e num size) :=
    ⟨h', r, by rw [heapStep, hcalloc]; rfl, hk', fun _ _ _ hno => HeapCall.noConfusion hno⟩
  rcases hk.initList e with ⟨hinit, -⟩ | ⟨h₁, l, hinit, hg, hl, hitems, hb, hc⟩
  · refine ⟨fun _ => hdone (by rw [baseCalloc, hinit]) hk, fun _ hno => ?_⟩
    rw [hinit] at hno
    cases hno
  · cases hp : e.ptr with
    | none =>
      have hbase : baseCalloc e num size h = some (h₁, none) := by
        simp only [baseCalloc, hinit, hp]
      refine ⟨fun _ => hdone hbase (.of hg hl hb (hitems ▸ hk.tallies)), fun _ _ hno => ?_⟩
      rw [hp] at hno
      cases hno
    | some p =>
      have hbase : baseCalloc e num size h =
          recordBlock e p (num * size) (h₁.acquire p (num.toNat * size.toNat)) := by
        simp only [baseCalloc, hinit, hp]
      have hblocks : (h₁.acquire p (num.toNat * size.toNat)).blocks =
          update h.blocks p (some (num.toNat * size.toNat)) := by rw [← hb]; rfl
      constructor
      · intro hprov
        obtain ⟨h', r, hrec, hk', -⟩ := recordBlock_kept (h := h₁.acquire p _) hg hl
          (hitems ▸ hk.tallies) (ha p hp) hblocks fun hcan => by
            have hlt := hprov (by rw [hinit]; rfl) (by rw [hp]; rfl) (hc ▸ hcan)
            rw [UInt32.toNat_mul, Nat.mod_eq_of_lt hlt]
        exact hdone (hbase.trans hrec) hk'
      · rintro ⟨h', r, hstep, hexact, -⟩ - - hcan
        -- the record of the block has the size that was asked for, and no more fits in it
        have hcan' : (h₁.acquire p (num.toNat * size.toNat)).canRecord e = true := by
          rw [← hcan, ← hc]
          rfl
        obtain ⟨h₂, l₂, hrec, -, -, -, hb₂⟩ := recordBlock_of hcan' hg hl p (num * size)
        rw [heapStep, hbase, hrec] at hstep
        obtain ⟨rfl, -⟩ := Prod.mk.inj (some.inj hstep)
        obtain ⟨s, -, -, hs⟩ := (hexact.mem_iff p (num.toNat * size.toNat)).mpr (by
          rw [hb₂, hblocks, update_self])
        rw [← hs]
        exact UInt32.toNat_lt s.uiSize

theorem malloc_spec {size : UInt32} (hk : Kept h) (ha : Allocates h (.malloc e size)) :
    (Provides h (.malloc e size) → Done h (.malloc e size)) ∧
      (KeepsLedger h (.malloc e size) → Provides h (.malloc e size)) := by
  have hdone {h' : Heap} {r : Option Nat} (hmalloc : baseMalloc e size h = some (h', r))
      (hk' : Kept h') : Done h (.malloc e size) :=
    ⟨h', r, by rw [heapStep, hmalloc]; rfl, hk', fun _ _ _ hno => HeapCall.noConfusion hno⟩
  cases hp : e.ptr with
  | none =>
    have hbase : baseMalloc e size h = some (h, none) := by simp only [baseMalloc, hp]
    refine ⟨fun _ => hdone hbase hk, fun _ _ hno => ?_⟩
    rw [hp] at hno
    cases hno
  | some p =>
    have hbase : baseMalloc e size h = recordBlock e p size (h.acquire p size.toNat) := by
      simp only [baseMalloc, hp]
    cases hg : h.gPstHeapList with
    | some l =>
      refine ⟨fun _ => ?_, fun _ hno => by rw [hg] at hno; cases hno⟩
      obtain ⟨h', r, hrec, hk', -⟩ := recordBlock_kept (h := h.acquire p size.toNat)
        (n := size) hg (hk.counts l hg) (Heap.records_of hg ▸ hk.tallies) (ha p hp) rfl
        fun _ => rfl
      exact hdone (hbase.trans hrec) hk'
    | none =>
      constructor
      · intro hprov
        have hcan := hprov hg (by rw [hp]; rfl)
        obtain ⟨h', hrec, hg', hb'⟩ :=
          recordBlock_of_not (h := h.acquire p size.toNat) hcan p size
        refine hdone (hbase.trans hrec) ⟨fun l hl => ?_, ?_⟩
        · rw [hg'] at hl
          exact hk.counts l hl
        · have hsame : h'.blocks = h.blocks := by
            have hnone : h.blocks p = none := ha p hp
            rw [hb', Heap.acquire, update_idem, ← hnone, update_eq_self]
          have hrecords : h'.records = h.records := by
            rw [Heap.records, Heap.records, hg']
            rfl
          rw [hsame, hrecords]
          exact hk.tallies
      · rintro ⟨h', r, hstep, -⟩ - -
        by_contra hcan
        rw [Bool.not_eq_false] at hcan
        rw [heapStep, hbase, recordBlock_of_none (h := h.acquire p size.toNat) hcan hg] at hstep
        cases hstep

theorem realloc_spec {mem : Option Nat} {newsize : UInt32} (hk : Kept h)
    (ha : Allocates h (.realloc e mem newsize)) :
    (Provides h (.realloc e mem newsize) → Done h (.realloc e mem newsize)) ∧
      (KeepsLedger h (.realloc e mem newsize) → Provides h (.realloc e mem newsize)) := by
  have hdone {h' : Heap} {r : Option Nat} (hrealloc : baseRealloc e mem newsize h = some (h', r))
      (hk' : Kept h') (hmem : ∀ m, mem = some m → r = none → newsize ≠ 0 →
        m ∈ h.records.map HeapNode.pPtr → m ∈ h'.records.map HeapNode.pPtr) :
      Done h (.realloc e mem newsize) := by
    refine ⟨h', r, by rw [heapStep, hrealloc]; rfl, hk', fun e' m n heq => ?_⟩
    cases heq
    exact hmem m rfl
  rcases hk.initList e with ⟨hinit, hnil⟩ | ⟨h₁, l, hinit, hg, hl, hitems, hb, hc⟩
  · refine ⟨fun _ => hdone (by rw [baseRealloc, hinit]) hk fun _ _ _ _ hm => hm,
      fun _ p _ hmem => ?_⟩
    rw [hnil] at hmem
    cases hmem
  have htallies : Tallies l.nodes.items h.blocks := hitems ▸ hk.tallies
  rcases hl.del mem with ⟨hall, hdel⟩ | ⟨as, s, bs, l', hsplit, hs, hdel, hl', hitems'⟩
  · -- not recorded: nothing happens
    have hbase : baseRealloc e mem newsize h = some (h₁, none) := by
      simp only [baseRealloc, hinit, hg, bind_eq_bind, bind_some, hdel]
      rw [if_pos (by decide), ← hg]
      rfl
    refine ⟨fun _ => hdone hbase (.of hg hl hb htallies) fun m _ _ _ hm => ?_,
      fun _ p hp hmem => ?_⟩
    · rw [Heap.records_of hg, hitems]
      exact hm
    · obtain ⟨r, hr, rfl⟩ := List.mem_map.mp hmem
      exact absurd (mem_def.mp hp).symm (hall r (hitems ▸ hr))
  · -- recorded: the record is struck out before anything else
    subst hs
    have hcut : Tallies l'.nodes.items (update h.blocks s.pPtr none) := by
      rw [hitems']
      rw [hsplit] at htallies
      exact htallies.cut
    have hgone : s.pPtr ∉ l'.nodes.items.map HeapNode.pPtr := fun hm =>
      hcut.mem_map_iff.mp hm (update_self ..)
    have hrec : s.pPtr ∈ h.records.map HeapNode.pPtr := by
      rw [← hitems, hsplit]
      exact List.mem_map_of_mem (mem_append_right _ mem_cons_self)
    have hbase : baseRealloc e (some s.pPtr) newsize h =
        match sysRealloc e s.pPtr newsize { h₁ with gPstHeapList := some l' } with
        | (h, none) => some (h, none)
        | (h, some p) => recordBlock e p newsize h := by
      simp only [baseRealloc, hinit, hg, bind_eq_bind, bind_some, hdel]
      rfl
    cases hp : e.ptr with
    | none =>
      simp only [sysRealloc, hp] at hbase
      by_cases hzero : newsize = 0
      · rw [if_pos hzero] at hbase
        refine ⟨fun _ => hdone hbase (.of rfl hl' ?_ hcut) fun _ _ _ hne => absurd hzero hne,
          fun _ _ _ _ hne => absurd hzero hne⟩
        rw [← hb]
        rfl
      · rw [if_neg hzero] at hbase
        constructor
        · intro hprov
          have hsome := (hprov s.pPtr rfl hrec hzero).1
          rw [hp] at hsome
          cases hsome
        · rintro ⟨h', r, hstep, -, hmem⟩
          rw [heapStep, hbase] at hstep
          obtain ⟨rfl, hr⟩ := Prod.mk.inj (some.inj hstep)
          exact absurd (hmem e s.pPtr newsize rfl (List.cons.inj hr).1.symm hzero hrec) hgone
    | some q =>
      simp only [sysRealloc, hp] at hbase
      have hq : update h.blocks s.pPtr none q = none := by
        rw [update_apply]
        split
        · rfl
        · next hne =>
          rcases ha q hp with hnone | hsame
          · exact hnone
          · exact absurd (some.inj hsame).symm hne
      constructor
      · intro hprov
        obtain ⟨h', r, hrecord, hk', hr⟩ := recordBlock_kept
          (h := (Heap.release s.pPtr { h₁ with gPstHeapList := some l' }).acquire q newsize.toNat)
          (n := newsize) rfl hl' hcut hq (by rw [← hb]; rfl) fun _ => rfl
        refine hdone (hbase.trans hrecord) hk' fun m hm hnone hne hmrec => ?_
        obtain rfl := some.inj hm
        have hcan := (hprov s.pPtr rfl hrec hne).2
        rw [hr (hc ▸ hcan)] at hnone
        cases hnone
      · rintro ⟨h', r, hstep, -, hmem⟩ p - - hne
        refine ⟨by rw [hp]; rfl, ?_⟩
        by_contra hcan
        rw [Bool.not_eq_true, ← hc] at hcan
        obtain ⟨h₂, hrecord, hg₂, -⟩ := recordBlock_of_not
          (h := (Heap.release s.pPtr { h₁ with gPstHeapList := some l' }).acquire q newsize.toNat)
          hcan q newsize
        rw [heapStep, hbase, hrecord] at hstep
        obtain ⟨rfl, hr⟩ := Prod.mk.inj (some.inj hstep)
        have hm := hmem e s.pPtr newsize rfl (List.cons.inj hr).1.symm hne hrec
        rw [Heap.records_of hg₂] at hm
        exact hgone hm

theorem free_spec {mem : Option Nat} (hk : Kept h) : Done h (.free e mem) := by
  have hdone {h' : Heap} (hfree : baseFree e mem h = some (h', none)) (hk' : Kept h') :
      Done h (.free e mem) :=
    ⟨h', none, by rw [heapStep, hfree]; rfl, hk', fun _ _ _ hno => HeapCall.noConfusion hno⟩
  rcases hk.initList e with ⟨hinit, -⟩ | ⟨h₁, l, hinit, hg, hl, hitems, hb, -⟩
  · exact hdone (by rw [baseFree, hinit]) hk
  have htallies : Tallies l.nodes.items h.blocks := hitems ▸ hk.tallies
  rcases hl.del mem with ⟨-, hdel⟩ | ⟨as, s, bs, l', hsplit, rfl, hdel, hl', hitems'⟩
  · have hbase : baseFree e mem h = some (h₁, none) := by
      simp only [baseFree, hinit, hg, bind_eq_bind, bind_some, hdel]
      rw [if_pos (by decide), ← hg]
      rfl
    exact hdone hbase (.of hg hl hb htallies)
  · have hbase : baseFree e (some s.pPtr) h =
        some (Heap.release s.pPtr { h₁ with gPstHeapList := some l' }, none) := by
      simp only [baseFree, hinit, hg, bind_eq_bind, bind_some, hdel]
      rfl
    have hcut : Tallies l'.nodes.items (update h.blocks s.pPtr none) := by
      rw [hitems']
      rw [hsplit] at htallies
      exact htallies.cut
    refine hdone hbase (.of rfl hl' ?_ hcut)
    rw [← hb]
    rfl

/-! ## Every run -/

theorem provides_done {c : HeapCall} (hk : Kept h) (ha : Allocates h c) :
    (Provides h c → Done h c) ∧ (KeepsLedger h c → Provides h c) := by
  cases c with
  | calloc e num size => exact calloc_spec hk ha
  | malloc e size => exact malloc_spec hk ha
  | realloc e mem newsize => exact realloc_spec hk ha
  | free e mem => exact ⟨fun _ => free_spec hk, fun _ => trivial⟩

theorem kept_noHeap : Kept noHeap where
  counts := fun l hl => by cases hl
  tallies := ⟨nodup_nil, fun p n => iff_of_false (by rintro ⟨r, hr, -⟩; cases hr)
    fun hno => by cases hno⟩

/-- With a system that hands out no block twice, the ledger is exact after every call exactly where
every call meets the condition. -/
theorem ledger_exact_iff (calls : List HeapCall) (ha : Run.Along heapStep Allocates noHeap calls) :
    Run.Along heapStep KeepsLedger noHeap calls ↔ Run.Along heapStep Provides noHeap calls := by
  refine Run.along_iff_along_of (R := Kept) (fun h c hk ha => ?_)
    (fun h c h' o hk ha hp hstep => ?_) kept_noHeap ha
  · obtain ⟨hdone, hprov⟩ := provides_done hk ha
    exact ⟨hprov, fun hp => (hdone hp).keepsLedger⟩
  · obtain ⟨h₁, r, hstep₁, hk', -⟩ := (provides_done hk ha).1 hp
    rw [hstep₁] at hstep
    obtain ⟨rfl, -⟩ := Prod.mk.inj (some.inj hstep)
    exact hk'

/-- A system with memory for everything, at an address. -/
def plenty (p : Nat) : HeapEnv := ⟨true, true, true, some p⟩

/-- A block is got, grows elsewhere and is given back, and the first call is the one that can make
the ledger. -/
theorem ledger_exact_sample :
    Run.Along heapStep KeepsLedger noHeap [.calloc (plenty 1) 2 4, .malloc (plenty 2) 8,
      .realloc (plenty 3) (some 1) 16, .free (plenty 0) (some 3)] :=
  (ledger_exact_iff _ (by decide +kernel)).mpr (by decide +kernel)

/-- The first `malloc` writes to a ledger that does not exist.  A `realloc` that fails leaves its
block without a record, and `free` refuses it then. -/
theorem ledger_not_exact :
    heapStep noHeap (.malloc (plenty 1) 8) = none ∧
      ¬ Run.Along heapStep KeepsLedger noHeap [.malloc (plenty 1) 8] ∧
    ∃ h rs, Run.run heapStep noHeap [.calloc (plenty 1) 2 4,
        .realloc ⟨true, true, true, none⟩ (some 1) 16, .free (plenty 0) (some 1)] = some (h, rs) ∧
      h.blocks 1 = some 8 ∧ h.records = [] ∧
      ¬ Run.Along heapStep KeepsLedger noHeap [.calloc (plenty 1) 2 4,
        .realloc ⟨true, true, true, none⟩ (some 1) 16, .free (plenty 0) (some 1)] := by
  refine ⟨rfl, fun h => ?_, ⟨_, _, rfl, by decide +kernel, by decide +kernel, fun h => ?_⟩⟩
  · obtain ⟨h', r, hstep, -⟩ := h.1
    cases hstep
  · obtain ⟨h', r, hstep, -, hmem⟩ := (h.2 _ rfl).1
    obtain ⟨rfl, hr⟩ := Prod.mk.inj (some.inj hstep)
    have hrec := hmem _ 1 16 rfl (List.cons.inj hr).1.symm (by decide) (by decide +kernel)
    revert hrec
    decide +kernel

end Honyar.Base
