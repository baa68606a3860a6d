import Honyar.Lib.DoubleList
import Honyar.Lib.Keyed
import Honyar.Lib.Run

/-!
# The doubly linked list of the SDK

`double_link_list.c` with all it offers but its mutex and its callback for released data.  What the
functions hand out and take are pointers to the data of a block, here the block itself, and `none`
is `NULL`.  A call that touches a block given back, or the data of `NULL`, or that walks on without
an end, is `none`.
-/

namespace Honyar.LinkList

open Option List Function

/-- `aucData` with its length. -/
abbrev Data := List UInt8

/-- `double_link_list_private_t`, and `order_list_private_t` too. -/
structure LinkedList where
  list : DoubleList Data
  iListLen : Int

inductive Ret where
  | noErr
  | generalErr
  | paraErr
deriving DecidableEq

/-- What a function hands back. -/
inductive Out where
  | ret (iRet : Ret)
  | num (n : Int)
  | ptr (pData : Option Nat)
  | data (iRet : Ret) (pData : Data)
  | all (ds : List Data)
deriving DecidableEq

namespace LinkedList

/-! ## Blocks -/

/-- `double_link_list_node_new` where there is memory. -/
def nodeNew (pData : Data) (l : LinkedList) : LinkedList :=
  ⟨l.list.alloc pData, l.iListLen + 1⟩

/-- `double_link_list_node_destroy`. -/
def nodeDestroy (p : Nat) (l : LinkedList) : Option LinkedList := do
  let list ← l.list.free p
  return ⟨list, l.iListLen - 1⟩

/-- Writing to a block. -/
def write (p : Nat) (f : DoubleNode Data → DoubleNode Data) (l : LinkedList) :
    Option LinkedList := do
  let list ← l.list.write p f
  return { l with list := list }

def setHead (p : Option Nat) (l : LinkedList) : LinkedList :=
  { l with list := { l.list with head := p } }

def setTail (p : Option Nat) (l : LinkedList) : LinkedList :=
  { l with list := { l.list with tail := p } }

/-- A list that was just made, in the memory of another one. -/
def madeBeside (l : LinkedList) : LinkedList :=
  ⟨{ l.list with head := none, tail := none }, 0⟩

/-- A new block before another one that has a predecessor. -/
def linkBefore (pCurrNode : Nat) (pData : Data) (l : LinkedList) : Option LinkedList := do
  let p := l.list.fresh
  let l ← (l.nodeNew pData).write p fun n => { n with next := some pCurrNode }
  let c ← l.list.heap pCurrNode
  let l ← l.write p fun n => { n with prev := c.prev }
  let q ← c.prev
  let l ← l.write q fun n => { n with next := some p }
  l.write pCurrNode fun n => { n with prev := some p }

/-- The loop of the clear functions: every block from one on goes, and the ends stay as they
are. -/
def clearFrom : Nat → Option Nat → LinkedList → Option LinkedList
  | _, none, l => some l
  | 0, some _, _ => none
  | n + 1, some p, l => do
    let c ← l.list.heap p
    let l ← l.nodeDestroy p
    clearFrom n c.next l

/-- The loop of the print functions. -/
def printFrom : Nat → Option Nat → LinkedList → Option (List Data)
  | _, none, _ => some []
  | 0, some _, _ => none
  | n + 1, some p, l => do
    let c ← l.list.heap p
    let ds ← printFrom n c.next l
    return c.data :: ds

end LinkedList

variable (l : LinkedList)

/-- `double_link_list_head`; the data of `NULL` has no address. -/
def doubleLinkListHead : Option (Option Nat) := l.list.head.map some

/-- `double_link_list_tail`. -/
def doubleLinkListTail : Option (Option Nat) := l.list.tail.map some

/-- `double_link_list_next`. -/
def doubleLinkListNext (pCurrentData : Option Nat) : Option (Option Nat) :=
  l.list.next pCurrentData

/-- `double_link_list_prev`. -/
def doubleLinkListPrev : Option Nat → Option (Option Nat)
  | none => some l.list.tail
  | some p => (l.list.heap p).map (·.prev)

/-- `double_link_list_find` with a callback that compares. -/
def doubleLinkListFind (pCmpDataCb : Data → Data → Bool) (pData : Data) : Option (Option Nat) :=
  if pData = [] then some none else l.list.find fun d => pCmpDataCb d pData

/-- `double_link_list_head_insert`; `mem` says whether there is memory for the block. -/
def doubleLinkListHeadInsert (mem : Bool) (pData : Data) : Option (LinkedList × Ret) :=
  if pData = [] ∨ mem = false then some (l, .generalErr)
  else
    let p := l.list.fresh
    let l' := l.nodeNew pData
    match l.list.head with
    | none => some ((l'.setHead (some p)).setTail (some p), .noErr)
    | some h => do
      let l' ← l'.write p fun n => { n with next := some h }
      let l' ← l'.write h fun n => { n with prev := some p }
      return (l'.setHead (some p), .noErr)

/-- `double_link_list_tail_insert`. -/
def doubleLinkListTailInsert (mem : Bool) (pData : Data) : Option (LinkedList × Ret) :=
  if pData = [] ∨ mem = false then some (l, .generalErr)
  else do
    let list ← l.list.tailInsert pData
    return (⟨list, l.iListLen + 1⟩, .noErr)

/-- `double_link_list_insert` before a block, where there is data. -/
def doubleLinkListInsertNode (mem : Bool) (pCurrNode : Option Nat) (pData : Data) :
    Option (LinkedList × Ret) :=
  if l.list.head = pCurrNode then doubleLinkListHeadInsert l mem pData
  else if mem = false then some (l, .generalErr)
  else do
    let c ← pCurrNode
    let l' ← l.linkBefore c pData
    return (l', .noErr)

/-- `double_link_list_insert`.  What lies before `NULL` is no block and not the head. -/
def doubleLinkListInsert (mem : Bool) (pCurrentData : Option Nat) (pData : Data) :
    Option (LinkedList × Ret) :=
  if pData = [] then some (l, .generalErr)
  else
    match pCurrentData with
    | none => if mem = false then some (l, .generalErr) else none
    | some p => doubleLinkListInsertNode l mem (some p) pData

/-- `double_link_list_del`. -/
def doubleLinkListDel : Option Nat → Option (LinkedList × Ret)
  | none => some (l, .generalErr)
  | some p => do
    let list ← l.list.del p
    return (⟨list, l.iListLen - 1⟩, .noErr)

/-- `double_link_list_clear`. -/
def doubleLinkListClear : Option (LinkedList × Ret) := do
  let l' ← l.clearFrom l.list.fresh l.list.head
  return (l', .noErr)

/-- `double_link_list_set`: longer data goes to a new block, before the one behind the old one.
Behind the last one there is `NULL`. -/
def doubleLinkListSet (mem : Bool) (pCurrentData : Option Nat) (pData : Data) :
    Option (LinkedList × Ret) :=
  match pCurrentData with
  | none => some (l, .generalErr)
  | some p =>
    if pData = [] then some (l, .generalErr)
    else do
      let c ← l.list.heap p
      if pData.length ≤ c.data.length then
        let l' ← l.write p fun n => { n with data := pData }
        return (l', .noErr)
      else
        let (l', _) ← doubleLinkListDel l (some p)
        doubleLinkListInsertNode l' mem c.next pData

/-- `double_link_list_get`. -/
def doubleLinkListGet (pCurrentData : Option Nat) (iDataLen : Int) : Option (Ret × Data) :=
  match pCurrentData with
  | none => some (.generalErr, [])
  | some p =>
    if iDataLen ≤ 0 then some (.generalErr, [])
    else do
      let c ← l.list.heap p
      return (.noErr, c.data.take iDataLen.toNat)

/-- `double_link_list_print`. -/
def doubleLinkListPrint : Option (List Data) := l.printFrom l.list.fresh l.list.head

/-! ## Runs -/

inductive DoubleOp where
  | len
  | head
  | tail
  | next (pCurrentData : Option Nat)
  | prev (pCurrentData : Option Nat)
  | find (pCmpDataCb : Data → Data → Bool) (pData : Data)
  | headInsert (mem : Bool) (pData : Data)
  | tailInsert (mem : Bool) (pData : Data)
  | insert (mem : Bool) (pCurrentData : Option Nat) (pData : Data)
  | del (pCurrentData : Option Nat)
  | clear
  | set (mem : Bool) (pCurrentData : Option Nat) (pData : Data)
  | get (pCurrentData : Option Nat) (iDataLen : Int)
  | print

/-- A call that changes the list. -/
def changed (r : Option (LinkedList × Ret)) : Option (LinkedList × List Out) :=
  r.map fun r => (r.1, [.ret r.2])

/-- A call that only looks at it. -/
def seen (l : LinkedList) (out : Option Out) : Option (LinkedList × List Out) :=
  out.map fun out => (l, [out])

def doubleStep (l : LinkedList) : DoubleOp → Option (LinkedList × List Out)
  | .len => seen l (some (.num l.iListLen))
  | .head => seen l ((doubleLinkListHead l).map .ptr)
  | .tail => seen l ((doubleLinkListTail l).map .ptr)
  | .next p => seen l ((doubleLinkListNext l p).map .ptr)
  | .prev p => seen l ((doubleLinkListPrev l p).map .ptr)
  | .find cb d => seen l ((doubleLinkListFind l cb d).map .ptr)
  | .headInsert mem d => changed (doubleLinkListHeadInsert l mem d)
  | .tailInsert mem d => changed (doubleLinkListTailInsert l mem d)
  | .insert mem p d => changed (doubleLinkListInsert l mem p d)
  | .del p => changed (doubleLinkListDel l p)
  | .clear => changed (doubleLinkListClear l)
  | .set mem p d => changed (doubleLinkListSet l mem p d)
  | .get p n => seen l ((doubleLinkListGet l p n).map fun r => .data r.1 r.2)
  | .print => seen l ((doubleLinkListPrint l).map .all)

/-! ## Clearing -/

namespace LinkedList

variable {l} {l' : LinkedList}

theorem clearFrom_ends {n : Nat} {p : Option Nat} (h : clearFrom n p l = some l') :
    l'.list.head = l.list.head ∧ l'.list.tail = l.list.tail := by
  induction n generalizing p l with
  | zero =>
    cases p with
    | none =>
      obtain rfl := some.inj h
      exact ⟨rfl, rfl⟩
    | some p => cases h
  | succ n ih =>
    cases p with
    | none =>
      obtain rfl := some.inj h
      exact ⟨rfl, rfl⟩
    | some p =>
      obtain ⟨c, -, h⟩ := bind_eq_some_iff.mp h
      obtain ⟨l₁, hfree, h⟩ := bind_eq_some_iff.mp h
      obtain ⟨list, hlist, hl₁⟩ := bind_eq_some_iff.mp hfree
      obtain rfl := some.inj hl₁
      obtain ⟨d, -, rfl⟩ := map_eq_some_iff.mp hlist
      have hends := ih h
      exact hends

theorem clearFrom_none (n : Nat) (l : LinkedList) : clearFrom n none l = some l := by
  cases n <;> rfl

theorem madeBeside_eq (hhead : l.list.head = none) (htail : l.list.tail = none)
    (hlen : l.iListLen = 0) : l.madeBeside = l := by
  obtain ⟨⟨heap, head, tail, fresh⟩, iListLen⟩ := l
  obtain rfl : head = none := hhead
  obtain rfl : tail = none := htail
  obtain rfl : iListLen = 0 := hlen
  rfl

end LinkedList

/-! ## The sequence it stands for

An element is known by the number of its block, which is the one of its making. -/

/-- The elements of a list, with the number of those that were made. -/
structure Sequence where
  elems : List (Nat × Data)
  made : Nat
deriving DecidableEq

namespace Sequence

def Live (s : Sequence) (p : Nat) : Prop := p ∈ s.elems.map Prod.fst

instance decidableLive (s : Sequence) (p : Nat) : Decidable (s.Live p) :=
  inferInstanceAs (Decidable (_ ∈ _))

/-- A new element, where there is data and memory for it. -/
def insert (s : Sequence) (mem : Bool) (d : Data)
    (put : Nat × Data → List (Nat × Data) → List (Nat × Data)) : Sequence × List Out :=
  if d = [] ∨ mem = false then (s, [.ret .generalErr])
  else (⟨put (s.made, d) s.elems, s.made + 1⟩, [.ret .noErr])

/-- Putting an element before another one. -/
def before (p : Nat) (e : Nat × Data) : List (Nat × Data) → List (Nat × Data)
  | [] => []
  | x :: xs => if x.1 = p then e :: x :: xs else x :: before p e xs

/-- Without an element. -/
def del (s : Sequence) (p : Nat) : Sequence × List Out :=
  (⟨s.elems.filter (·.1 != p), s.made⟩, [.ret .noErr])

/-- An element with other data. -/
def set (s : Sequence) (p : Nat) (d : Data) : Sequence × List Out :=
  if d = [] then (s, [.ret .generalErr])
  else (⟨s.elems.map fun x => if x.1 = p then (p, d) else x, s.made⟩, [.ret .noErr])

/-- The element has no less data. -/
def Holds (s : Sequence) (p : Nat) (d : Data) : Prop :=
  ∃ x ∈ s.elems, x.1 = p ∧ d.length ≤ x.2.length

instance decidableHolds (s : Sequence) (p : Nat) (d : Data) : Decidable (s.Holds p d) :=
  inferInstanceAs (Decidable (∃ _ ∈ _, _))

/-- The calls of `double_link_list.c` that change a list, on its elements and with no more data
than they have. -/
def doubleStep (s : Sequence) : DoubleOp → Option (Sequence × List Out)
  | .headInsert mem d => some (s.insert mem d List.cons)
  | .tailInsert mem d => some (s.insert mem d fun e xs => xs ++ [e])
  | .insert mem (some p) d => if s.Live p then some (s.insert mem d (before p)) else none
  | .del (some p) => if s.Live p then some (s.del p) else none
  | .set _ (some p) d => if s.Holds p d then some (s.set p d) else none
  | _ => none

theorem before_split {as bs : List (Nat × Data)} {p : Nat} {x : Data} (e : Nat × Data)
    (hp : p ∉ as.map Prod.fst) :
    before p e (as ++ (p, x) :: bs) = as ++ e :: (p, x) :: bs := by
  induction as with
  | nil => exact if_pos rfl
  | cons a as ih =>
    rw [map_cons, mem_cons, not_or] at hp
    rw [cons_append, before, if_neg fun heq => hp.1 heq.symm, ih hp.2]
    rfl

end Sequence

/-- The list has the elements of the sequence, both ways from its ends. -/
structure LinkedList.Refines (l : LinkedList) (xs : List (Nat × Data)) : Prop where
  forwards : DoubleList.Visits l.list.heap (·.next) (·.data) none l.list.head xs
  backwards : DoubleList.Visits l.list.heap (·.prev) (·.data) none l.list.tail xs.reverse
  head : l.list.head = none ↔ xs = []
  tail : l.list.tail = none ↔ xs = []

namespace LinkedList

open DoubleList (firstOr lastOr lastOr_concat lastOr_eq_none)

/-- The blocks of the list are those of the elements, linked in their order. -/
structure Stands (l : LinkedList) (s : Sequence) : Prop where
  holds : l.list.Holds s.elems
  fresh : l.list.fresh = s.made

variable {l} {s s' : Sequence} {as bs : List (Nat × Data)} {p : Nat} {d x : Data} {mem : Bool}
  {o : List Out}

theorem Stands.refines (h : l.Stands s) : l.Refines s.elems where
  forwards := h.holds.head ▸ h.holds.linked.visits
  backwards := h.holds.tail ▸ h.holds.linked.visits_back
  head := by
    rw [h.holds.head]
    cases s.elems with
    | nil => exact iff_of_true rfl rfl
    | cons x xs => exact iff_of_false (some_ne_none _) (cons_ne_nil _ _)
  tail := by rw [h.holds.tail, lastOr_eq_none]

theorem Stands.split (h : l.Stands s) (hp : s.Live p) :
    ∃ as x bs, s.elems = as ++ (p, x) :: bs ∧ p ∉ as.map Prod.fst := by
  obtain ⟨⟨p, x⟩, hx, rfl⟩ := List.mem_map.mp hp
  obtain ⟨as, bs, heq⟩ := append_of_mem hx
  refine ⟨as, x, bs, heq, fun hm => ?_⟩
  have hnd := h.holds.nodup
  rw [heq, map_append, map_cons, nodup_append] at hnd
  exact hnd.2.2 p hm p mem_cons_self rfl

theorem headInsert_holds (h : l.list.Holds bs) (hd : d ≠ []) :
    ∃ l', doubleLinkListHeadInsert l true d = some (l', .noErr) ∧
      l'.list.fresh = l.list.fresh + 1 ∧ l'.list.Holds ((l.list.fresh, d) :: bs) := by
  have h₀ : l.list.Holds ([] ++ bs) := h
  cases bs with
  | nil =>
    have hhead : l.list.head = none := h.head
    refine ⟨_, by rw [doubleLinkListHeadInsert, if_neg (by simp [hd]), hhead], rfl, ?_⟩
    refine h₀.inserted rfl rfl rfl (update_self ..) fun q hq => ?_
    exact (update_of_ne hq _ _).trans
      (Chain.relinked_of_ne (some_ne_none q).symm (some_ne_none q).symm _).symm
  | cons b bs =>
    obtain ⟨b, y⟩ := b
    have hhead : l.list.head = some b := h.head
    have hb : l.list.heap b = some ⟨firstOr none bs, none, y⟩ := h.linked.1
    have hne : b ≠ l.list.fresh := fun heq => h.fresh_notMem (by simp [heq])
    have hcalc : doubleLinkListHeadInsert l true d = some (⟨⟨update (update
        (update l.list.heap l.list.fresh (some ⟨none, none, d⟩)) l.list.fresh
        (some ⟨some b, none, d⟩)) b (some ⟨firstOr none bs, some l.list.fresh, y⟩),
        some l.list.fresh, l.list.tail, l.list.fresh + 1⟩, l.iListLen + 1⟩, .noErr) := by
      simp [doubleLinkListHeadInsert, hd, hhead, nodeNew, write, DoubleList.write,
        DoubleList.alloc, hne, hb, setHead]
    refine ⟨_, hcalc, rfl, h₀.inserted rfl rfl h.tail ?_ fun q hq => ?_⟩
    · simp [hne.symm]
    · by_cases hqb : q = b
      · subst hqb
        simp [hb, Chain.relinked]
      · have hqb' : some b ≠ some q := fun heq => hqb (some.inj heq).symm
        refine Eq.trans ?_ (Chain.relinked_of_ne (some_ne_none q).symm hqb' _).symm
        simp [hq, hqb]

/-- Not before the first block: there is one that leads to the new one. -/
theorem linkBefore_holds (h : l.list.Holds (as ++ (p, x) :: bs)) (has : as ≠ []) (d : Data) :
    ∃ l', l.linkBefore p d = some l' ∧ l'.list.fresh = l.list.fresh + 1 ∧
      l'.list.Holds (as ++ (l.list.fresh, d) :: (p, x) :: bs) := by
  obtain ⟨as, ⟨t, y⟩, rfl⟩ := as.eq_nil_or_concat.resolve_left has
  rw [concat_eq_append] at *
  have hp := h.heap_eq
  have h' := h
  rw [append_assoc] at h'
  have ht := h'.heap_eq
  have hnd := h.nodup
  have hnew := h.fresh_notMem
  simp only [map_append, map_cons, map_nil, mem_append, mem_cons,
    not_mem_nil, or_false, not_or, nodup_append] at hnd hnew
  have hpt : p ≠ t := fun heq => hnd.2.2 t (.inr rfl) p (.inl rfl) heq.symm
  have hnp : p ≠ l.list.fresh := fun heq => hnew.2.1 heq.symm
  have hnt : t ≠ l.list.fresh := fun heq => hnew.1.2 heq.symm
  have hcalc : l.linkBefore p d = some ⟨{ l.list with
      heap := update (update (update (update (update
        l.list.heap l.list.fresh (some ⟨none, none, d⟩)) l.list.fresh (some ⟨some p, none, d⟩))
        l.list.fresh (some ⟨some p, some t, d⟩)) t (some ⟨some l.list.fresh, lastOr none as, y⟩))
        p (some ⟨firstOr none bs, some l.list.fresh, x⟩)
      fresh := l.list.fresh + 1 }, l.iListLen + 1⟩ := by
    rw [lastOr_concat] at hp
    simp [linkBefore, nodeNew, write, DoubleList.write, DoubleList.alloc, hnp, hnt, hp, ht, hpt]
  refine ⟨_, hcalc, rfl, h.inserted rfl ?_ ?_ ?_ fun q hq => ?_⟩
  · rw [h.head, DoubleList.firstOr_append, DoubleList.firstOr_append,
      DoubleList.firstOr_append]
    rfl
  · rw [h.tail, DoubleList.lastOr_append_cons]
    rfl
  · rw [lastOr_concat]
    simp [hnp.symm, hnt.symm]
  · rw [lastOr_concat]
    by_cases hqt : q = t
    · subst hqt
      simp [ht, hpt, hpt.symm, Chain.relinked]
    · by_cases hqp : q = p
      · subst hqp
        simp [hp, Ne.symm hqt, Chain.relinked]
      · have hqt' : some t ≠ some q := fun heq => hqt (some.inj heq).symm
        have hqp' : some p ≠ some q := fun heq => hqp (some.inj heq).symm
        refine Eq.trans ?_ (Chain.relinked_of_ne hqt' hqp' _).symm
        simp [hq, hqt, hqp]

theorem Stands.insert (h : l.Stands s)
    {put : Nat × Data → List (Nat × Data) → List (Nat × Data)} {r : Option (LinkedList × Ret)}
    (herr : d = [] ∨ mem = false → r = some (l, .generalErr))
    (hput : d ≠ [] → mem = true → ∃ l', r = some (l', .noErr) ∧
      l'.list.fresh = l.list.fresh + 1 ∧ l'.list.Holds (put (l.list.fresh, d) s.elems))
    (hs : s.insert mem d put = (s', o)) : ∃ l', changed r = some (l', o) ∧ l'.Stands s' := by
  rw [Sequence.insert] at hs
  split at hs <;> obtain ⟨rfl, rfl⟩ := Prod.mk.inj hs
  case isTrue hd =>
    rw [herr hd]
    exact ⟨l, rfl, h⟩
  case isFalse hd =>
    rw [not_or, Bool.not_eq_false] at hd
    obtain ⟨l', hr, hfresh, hholds⟩ := hput hd.1 hd.2
    rw [hr]
    rw [h.fresh] at hfresh hholds
    exact ⟨l', rfl, hholds, hfresh⟩

theorem Stands.del (h : l.Stands s) (hp : s.Live p) (hs : s.del p = (s', o)) :
    ∃ l', changed (doubleLinkListDel l (some p)) = some (l', o) ∧ l'.Stands s' := by
  obtain ⟨rfl, rfl⟩ := Prod.mk.inj hs
  obtain ⟨as, x, bs, heq, -⟩ := h.split hp
  have hholds := heq ▸ h.holds
  obtain ⟨list, hdel, hfresh, hnew⟩ := hholds.del
  refine ⟨⟨list, l.iListLen - 1⟩, by rw [doubleLinkListDel, hdel]; rfl, ?_, hfresh.trans h.fresh⟩
  have hfilter := Keyed.filter_ne_split hholds.nodup
  rw [heq]
  exact hfilter.symm ▸ hnew

theorem Stands.write (h : l.Stands s) (hp : s.Holds p d) (hd : d ≠ []) :
    ∃ c l', l.list.heap p = some c ∧ d.length ≤ c.data.length ∧
      l.write p (fun n => { n with data := d }) = some l' ∧ l'.Stands (s.set p d).1 := by
  obtain ⟨⟨p, x⟩, hx, rfl, hlen⟩ := hp
  obtain ⟨as, bs, heq⟩ := append_of_mem hx
  have hholds := heq ▸ h.holds
  obtain ⟨list, hset, hfresh, hnew⟩ := hholds.modify fun _ => d
  refine ⟨_, ⟨list, l.iListLen⟩, hholds.heap_eq, hlen, ?_, ?_⟩
  · rw [DoubleList.modify] at hset
    rw [LinkedList.write, hset]
    rfl
  · have hmap := Keyed.map_write_split (f := fun _ => (p, d)) hholds.nodup
    rw [Sequence.set, if_neg hd, heq]
    exact ⟨hmap.symm ▸ hnew, hfresh.trans h.fresh⟩

theorem Stands.set (h : l.Stands s) (hp : s.Holds p d) (hs : s.set p d = (s', o)) :
    ∃ l', changed (doubleLinkListSet l mem (some p) d) = some (l', o) ∧ l'.Stands s' := by
  by_cases hd : d = []
  · rw [Sequence.set, if_pos hd] at hs
    obtain ⟨rfl, rfl⟩ := Prod.mk.inj hs
    exact ⟨l, by simp [doubleLinkListSet, hd, changed], h⟩
  · obtain ⟨c, l', hc, hlen, hwrite, hstands⟩ := h.write hp hd
    rw [Sequence.set, if_neg hd] at hs hstands
    obtain ⟨rfl, rfl⟩ := Prod.mk.inj hs
    exact ⟨l', by simp [doubleLinkListSet, hd, hc, hlen, hwrite, changed], hstands⟩

theorem Stands.doubleStep (h : l.Stands s) {op : DoubleOp}
    (hop : s.doubleStep op = some (s', o)) :
    ∃ l', doubleStep l op = some (l', o) ∧ l'.Stands s' := by
  have hguard {P : Prop} [Decidable P] {r : Sequence × List Out}
      (heq : (if P then some r else none) = some (s', o)) : P ∧ r = (s', o) := by
    rwa [ite_none_right_eq_some, some.injEq] at heq
  cases op with
  | headInsert mem d =>
    refine h.insert (fun herr => by rw [doubleLinkListHeadInsert, if_pos herr])
      (fun hd hm => ?_) (some.inj hop)
    exact hm ▸ headInsert_holds h.holds hd
  | tailInsert mem d =>
    refine h.insert (fun herr => by rw [doubleLinkListTailInsert, if_pos herr])
      (fun hd hm => ?_) (some.inj hop)
    obtain ⟨list, htail, hfresh, hnew⟩ := h.holds.tailInsert d
    exact ⟨⟨list, _⟩, by rw [doubleLinkListTailInsert, if_neg (by simp [hd, hm]), htail]; rfl,
      hfresh, hnew⟩
  | insert mem p d =>
    cases p with
    | none => cases hop
    | some p =>
      obtain ⟨hp, hs⟩ := hguard hop
      obtain ⟨as, x, bs, heq, hpA⟩ := h.split hp
      have hholds := heq ▸ h.holds
      refine h.insert (fun herr => ?_) (fun hd hm => ?_) hs
      · by_cases hd : d = []
        · rw [doubleLinkListInsert, if_pos hd]
        · rw [doubleLinkListInsert, if_neg hd, doubleLinkListInsertNode,
            doubleLinkListHeadInsert, if_pos herr, if_pos (herr.resolve_left hd), ite_self]
      · subst hm
        rw [doubleLinkListInsert, if_neg hd, doubleLinkListInsertNode, heq,
          Sequence.before_split _ hpA]
        by_cases hhead : as = []
        · subst hhead
          have hfirst : l.list.head = some p := hholds.head
          rw [if_pos hfirst]
          exact headInsert_holds hholds hd
        · have hfirst : l.list.head ≠ some p :=
            fun hf => hhead (lastOr_eq_none.mp (hholds.ends.1.mp hf))
          obtain ⟨l', hlink, hfresh, hnew⟩ := linkBefore_holds hholds hhead d
          exact ⟨l', by rw [if_neg hfirst]; simp [hlink], hfresh, hnew⟩
  | del p =>
    cases p with
    | none => cases hop
    | some p =>
      obtain ⟨hp, hs⟩ := hguard hop
      exact h.del hp hs
  | set mem p d =>
    cases p with
    | none => cases hop
    | some p =>
      obtain ⟨hp, hs⟩ := hguard hop
      exact h.set hp hs
  | len | head | tail | next | prev | find | clear | get | print => cases hop

end LinkedList

/-- `new_double_link_list`. -/
def newLinkedList : LinkedList := ⟨.empty, 0⟩

theorem stands_newLinkedList : newLinkedList.Stands ⟨[], 0⟩ := ⟨DoubleList.holds_empty, rfl⟩

/-- Every run of calls that put elements in, take them out or change their data returns what it
returns of the sequence, and leaves a list with the elements of the sequence. -/
theorem doubleLinkList_refines {ops : List DoubleOp} {s : Sequence} {os : List Out}
    (h : Run.run Sequence.doubleStep ⟨[], 0⟩ ops = some (s, os)) :
    ∃ l, Run.run doubleStep newLinkedList ops = some (l, os) ∧ l.Refines s.elems := by
  obtain ⟨l, hrun, hstands⟩ :=
    Run.refines (fun _ _ _ _ _ hr hop => hr.doubleStep hop) stands_newLinkedList h
  exact ⟨l, hrun, hstands.refines⟩

/-- Elements put in at both ends and before the last one, one of them changed, one taken out. -/
theorem doubleLinkList_refines_sample :
    ∃ l, Run.run doubleStep newLinkedList
        [.headInsert true [1], .tailInsert true [2, 3], .insert true (some 1) [4],
          .set true (some 1) [5], .del (some 0)] = some (l, List.replicate 5 (.ret .noErr)) ∧
      l.Refines [(2, [4]), (1, [5])] :=
  doubleLinkList_refines (s := ⟨[(2, [4]), (1, [5])], 3⟩) (by decide)

end Honyar.LinkList
